import Rssh.Lib.Machine
import Rssh.Process.Deadlines
import Rssh.Types

/-!
# Starting and stopping the fixtures

The SSH server, its agent and the echo server run on worker threads. Who starts or stops one waits
for a message on a channel up to a deadline, and then joins the thread within what remains of it, or
hands the thread to the process reaper. The five waits differ in what they report only, which is a
`WaitReports`; `WorkerWait.step` is one step of any of them, and the worker, its channel and the
clock go on at any time.

* `worker_wait` says what such a wait reports, and where the thread is afterwards.
* `server_stop` is the same for `HermeticSshServer::stop`, which waits for the two workers one after
  the other under one deadline.
-/

namespace Rssh

variable {ρ ε : Type} {limit : Nat}

/-! ## Errors -/

/-- The kinds of an `io::Error` that the fixtures make themselves. -/
inductive IoErrorKind where
  | timedOut
  | brokenPipe
  | other
deriving DecidableEq, Repr

structure FixtureIoError where
  kind : IoErrorKind
  message : String
deriving DecidableEq, Repr

inductive SshFixtureError where
  | io (operation : String) (source : FixtureIoError)
  | timedOut (operation : String) (deadline : Duration)
  | workerPanicked
deriving DecidableEq, Repr

/-- What a wait for a worker reports, for a message or without one. A message may leave the worker
running. -/
structure WaitReports (ρ ε : Type) where
  keeps : ρ → Bool
  result : ρ → Except ε Unit
  timedOut : Duration → ε
  panicked : ε
  joinTimedOut : Duration → ε
  missing : ε
  missingTimedOut : Duration → ε

namespace WaitReports

/-- `HermeticSshServer::start_configured`, from its wait for readiness. -/
def serverStart : WaitReports (Except SshFixtureError Unit) SshFixtureError where
  keeps ready := ready.isOk
  result := id
  timedOut := .timedOut "startup"
  panicked := .workerPanicked
  joinTimedOut := .timedOut "startup worker join"
  missing := .io "startup completion" ⟨.brokenPipe, "worker exited without completion"⟩
  missingTimedOut := .timedOut "startup completion"

/-- `HermeticSshServer::stop_ssh_worker`. -/
def serverStop : WaitReports (Except SshFixtureError Unit) SshFixtureError where
  keeps _ := false
  result := id
  timedOut := .timedOut "teardown"
  panicked := .workerPanicked
  joinTimedOut := .timedOut "worker join"
  missing := .io "teardown completion" ⟨.brokenPipe, "worker exited without completion"⟩
  missingTimedOut := .timedOut "teardown completion"

/-- `AgentFixture::stop_inner`. -/
def agentStop : WaitReports (Except FixtureIoError Unit) FixtureIoError where
  keeps _ := false
  result := id
  timedOut budget :=
    ⟨.timedOut, "in-memory fixture agent teardown exceeded " ++ budget.debug⟩
  panicked := ⟨.other, "in-memory fixture agent worker panicked"⟩
  joinTimedOut budget :=
    ⟨.timedOut, "in-memory fixture agent worker join exceeded " ++ budget.debug⟩
  missing := ⟨.brokenPipe, "in-memory fixture agent worker exited without completion"⟩
  missingTimedOut budget :=
    ⟨.timedOut, "in-memory fixture agent worker join exceeded " ++ budget.debug⟩

/-- `LoopbackEchoServer::start_configured`, from its wait for readiness. -/
def echoStart : WaitReports Unit FixtureIoError where
  keeps _ := true
  result _ := .ok ()
  timedOut _ := ⟨.timedOut, "loopback echo server did not become ready before deadline"⟩
  panicked := ⟨.other, "loopback echo worker panicked"⟩
  joinTimedOut budget := ⟨.timedOut, "loopback echo worker join exceeded " ++ budget.debug⟩
  missing := ⟨.brokenPipe, "loopback echo worker exited without readiness"⟩
  missingTimedOut budget := ⟨.timedOut, "loopback echo worker join exceeded " ++ budget.debug⟩

/-- `LoopbackEchoServer::stop_inner`. -/
def echoStop : WaitReports (Except FixtureIoError Unit) FixtureIoError where
  keeps _ := false
  result := id
  timedOut budget := ⟨.timedOut, "loopback echo teardown exceeded " ++ budget.debug⟩
  panicked := ⟨.other, "loopback echo worker panicked"⟩
  joinTimedOut budget := ⟨.timedOut, "loopback echo worker join exceeded " ++ budget.debug⟩
  missing := ⟨.brokenPipe, "loopback echo worker exited without completion"⟩
  missingTimedOut budget := ⟨.timedOut, "loopback echo worker join exceeded " ++ budget.debug⟩

/-- The thread was joined, with the message that came before. -/
def joined (R : WaitReports ρ ε) (received : Option ρ) (panicked : Bool) : Except ε Unit :=
  if panicked then .error R.panicked
  else
    match received with
    | some message => R.result message
    | none => .error R.missing

/-- The thread was not joined in time. -/
def deferred (R : WaitReports ρ ε) (received : Option ρ) (budget : Duration) : ε :=
  match received with
  | some _ => R.joinTimedOut budget
  | none => R.missingTimedOut budget

end WaitReports

/-! ## The worker -/

/-- A worker thread as its owner sees it: the message in the channel, when its end of the channel
was dropped, and how and when the thread ended. -/
structure Worker (ρ : Type) (limit : Nat) where
  sent : Option (ρ × Instant limit) := none
  hungUpAt : Option (Instant limit) := none
  ended : Option (Bool × Instant limit) := none
deriving DecidableEq

inductive WorkerLabel (ρ : Type) where
  | sends (message : ρ)
  | hangsUp
  | ends (panicked : Bool)
deriving DecidableEq

namespace Worker

/-- The worker sends at most one message; its end of the channel is dropped before it ends. -/
def step (now : Instant limit) (worker : Worker ρ limit) : WorkerLabel ρ → Option (Worker ρ limit)
  | .sends message =>
      if worker.sent.isNone ∧ worker.hungUpAt.isNone then
        some { worker with sent := some (message, now) }
      else none
  | .hangsUp =>
      if worker.hungUpAt.isNone then some { worker with hungUpAt := some now } else none
  | .ends panicked =>
      if worker.hungUpAt.isSome ∧ worker.ended.isNone then
        some { worker with ended := some (panicked, now) }
      else none

/-- The message, at whatever time it was sent. -/
def message (worker : Worker ρ limit) : Option ρ := worker.sent.map Prod.fst

end Worker

/-! ## The wait -/

/-- `ShutdownDeadline::remaining`. -/
def ShutdownDeadline.remaining (deadline : ShutdownDeadline limit) (now : Instant limit) : Nat :=
  deadline.at_.saturatingDurationSince now

/-- What has become of the `JoinHandle`. -/
inductive WorkerHandle where
  | held
  | joined
  | deferred
deriving DecidableEq, Repr

/-- Where a wait is. It receives up to `upTo`, if the clock can represent that time. -/
inductive WaitStage (ρ ε : Type) (limit : Nat) where
  | measuring
  | receiving (upTo : Option (Instant limit))
  | joining (received : Option ρ)
  | returned (result : Except ε Unit)

/-- A wait for a worker. -/
structure WorkerWait (ρ ε : Type) (limit : Nat) where
  deadline : ShutdownDeadline limit
  stage : WaitStage ρ ε limit := .measuring
  handle : WorkerHandle := .held

inductive WaitLabel (limit : Nat) where
  | measures (first : Instant limit)
  | receives
  | disconnects
  | elapses
  | joins
  | defers
deriving DecidableEq

namespace WorkerWait

def budget (wait : WorkerWait ρ ε limit) : Duration := ⟨wait.deadline.budget⟩

/-- One step of the wait. `recv_timeout` looks into the channel before it looks at the clock, and
`join_thread_until` asks for the end of the thread once more when the time is over. -/
def step (R : WaitReports ρ ε) (now : Instant limit) (worker : Worker ρ limit)
    (wait : WorkerWait ρ ε limit) : WaitLabel limit → Option (WorkerWait ρ ε limit)
  | .measures first =>
      match wait.stage with
      | .measuring =>
          -- the clock is read for what remains, and again by `recv_timeout`
          if first ≤ now then
            some { wait with stage := .receiving (now.checkedAdd (wait.deadline.remaining first)) }
          else none
      | _ => none
  | .receives =>
      match wait.stage, worker.sent with
      | .receiving _, some (message, _) =>
          if R.keeps message then some { wait with stage := .returned (R.result message) }
          else some { wait with stage := .joining (some message) }
      | _, _ => none
  | .disconnects =>
      match wait.stage with
      | .receiving _ =>
          if worker.sent.isNone ∧ worker.hungUpAt.isSome then
            some { wait with stage := .joining none }
          else none
      | _ => none
  | .elapses =>
      match wait.stage with
      | .receiving (some upTo) =>
          if upTo ≤ now ∧ worker.sent.all (upTo ≤ ·.2) ∧ worker.hungUpAt.all (upTo ≤ ·) then
            some
              { wait with
                stage := .returned (.error (R.timedOut wait.budget))
                handle := .deferred }
          else none
      | _ => none
  | .joins =>
      match wait.stage, worker.ended with
      | .joining received, some (panicked, _) =>
          some { wait with stage := .returned (R.joined received panicked), handle := .joined }
      | _, _ => none
  | .defers =>
      match wait.stage with
      | .joining received =>
          if wait.deadline.at_ ≤ now ∧ worker.ended.isNone then
            some
              { wait with
                stage := .returned (.error (R.deferred received wait.budget))
                handle := .deferred }
          else none
      | _ => none

end WorkerWait

/-! ## What a step can do -/

/-- An event that has not come, or not before a time. -/
def NotBefore {α : Type} (upTo : Instant limit) (event : Option (α × Instant limit)) : Prop :=
  ∀ found, event = some found → upTo ≤ found.2

namespace WorkerWait

variable {R : WaitReports ρ ε} {now : Instant limit} {worker : Worker ρ limit}
  {wait wait' : WorkerWait ρ ε limit}

/-- What one step of a wait can do. -/
inductive Steps (R : WaitReports ρ ε) (now : Instant limit) (worker : Worker ρ limit)
    (wait : WorkerWait ρ ε limit) : WorkerWait ρ ε limit → Prop where
  | measures {first : Instant limit} (hstage : wait.stage = .measuring) (hfirst : first ≤ now) :
      Steps R now worker wait
        { wait with stage := .receiving (now.checkedAdd (wait.deadline.remaining first)) }
  | keeps {upTo : Option (Instant limit)} {message : ρ} {time : Instant limit}
      (hstage : wait.stage = .receiving upTo) (hsent : worker.sent = some (message, time))
      (hkeeps : R.keeps message = true) :
      Steps R now worker wait { wait with stage := .returned (R.result message) }
  | receives {upTo : Option (Instant limit)} {message : ρ} {time : Instant limit}
      (hstage : wait.stage = .receiving upTo) (hsent : worker.sent = some (message, time)) :
      Steps R now worker wait { wait with stage := .joining (some message) }
  | disconnects {upTo : Option (Instant limit)} (hstage : wait.stage = .receiving upTo)
      (hsent : worker.sent = none) (hhungUp : worker.hungUpAt ≠ none) :
      Steps R now worker wait { wait with stage := .joining none }
  | elapses {upTo : Instant limit} (hstage : wait.stage = .receiving (some upTo))
      (hover : upTo ≤ now) (hsent : NotBefore upTo worker.sent)
      (hhungUp : worker.hungUpAt.all (upTo ≤ ·) = true) :
      Steps R now worker wait
        { wait with stage := .returned (.error (R.timedOut wait.budget)), handle := .deferred }
  | joins {received : Option ρ} {panicked : Bool} {time : Instant limit}
      (hstage : wait.stage = .joining received) (hended : worker.ended = some (panicked, time)) :
      Steps R now worker wait
        { wait with stage := .returned (R.joined received panicked), handle := .joined }
  | defers {received : Option ρ} (hstage : wait.stage = .joining received)
      (hover : wait.deadline.at_ ≤ now) (hended : worker.ended = none) :
      Steps R now worker wait
        { wait with
          stage := .returned (.error (R.deferred received wait.budget))
          handle := .deferred }

/-- `Steps` has every step of a wait. -/
theorem steps_of_step {label : WaitLabel limit} (h : wait.step R now worker label = some wait') :
    Steps R now worker wait wait' := by
  cases label with
  | measures first =>
      simp only [step] at h
      split at h
      · rename_i hstage
        split_ifs at h with hfirst
        obtain rfl := Option.some.inj h
        exact .measures hstage hfirst
      · cases h
  | receives =>
      simp only [step] at h
      split at h
      · rename_i upTo message time hstage hsent
        split_ifs at h with hkeeps
        · obtain rfl := Option.some.inj h
          exact .keeps hstage hsent hkeeps
        · obtain rfl := Option.some.inj h
          exact .receives hstage hsent
      · cases h
  | disconnects =>
      simp only [step] at h
      split at h
      · rename_i upTo hstage
        split_ifs at h with hguard
        obtain rfl := Option.some.inj h
        exact .disconnects hstage (Option.isNone_iff_eq_none.mp hguard.1)
          (Option.isSome_iff_ne_none.mp hguard.2)
      · cases h
  | elapses =>
      -- a message or the end of the channel before the time is seen first
      simp only [step] at h
      split at h
      · rename_i upTo hstage
        split_ifs at h with hguard
        obtain rfl := Option.some.inj h
        refine .elapses hstage hguard.1 ?_ hguard.2.2
        intro found hfound
        simpa [hfound] using hguard.2.1
      · cases h
  | joins =>
      simp only [step] at h
      split at h
      · rename_i received panicked time hstage hended
        obtain rfl := Option.some.inj h
        exact .joins hstage hended
      · cases h
  | defers =>
      simp only [step] at h
      split at h
      · rename_i received hstage
        split_ifs at h with hguard
        obtain rfl := Option.some.inj h
        exact .defers hstage hguard.1 (Option.isNone_iff_eq_none.mp hguard.2)
      · cases h

end WorkerWait

/-! ## The worker goes on -/

namespace Worker

/-- Whether there is a message is settled. -/
def Settled (worker : Worker ρ limit) : Prop :=
  worker.sent ≠ none ∨ worker.hungUpAt ≠ none

/-- The order of what a worker does, up to now. -/
structure Inv (now : Instant limit) (worker : Worker ρ limit) : Prop where
  hungUp : ∀ time, worker.hungUpAt = some time → time ≤ now
  ended : ∀ found, worker.ended = some found →
    ∃ time, worker.hungUpAt = some time ∧ time ≤ found.2

/-- Later the worker has done the same, and more only at that time. Nothing is sent behind the end
of the channel. -/
structure Evolves (now : Instant limit) (worker : Worker ρ limit) (later : Instant limit)
    (worker' : Worker ρ limit) : Prop where
  le : now ≤ later
  sent : worker'.sent = worker.sent ∨ worker.sent = none ∧ worker.hungUpAt = none ∧
    ∃ message, worker'.sent = some (message, later)
  hungUp : worker'.hungUpAt = worker.hungUpAt ∨ worker.hungUpAt = none
  ended : worker'.ended = worker.ended ∨
    worker.ended = none ∧ ∃ panicked, worker'.ended = some (panicked, later)

variable {now later : Instant limit} {worker worker' : Worker ρ limit}

/-- A worker that takes a step has done what it had done before. -/
theorem evolves_of_step {label : WorkerLabel ρ} (h : worker.step now label = some worker') :
    Evolves now worker now worker' := by
  cases label with
  | sends message =>
      simp only [step, Option.isNone_iff_eq_none] at h
      split_ifs at h with hguard
      obtain rfl := Option.some.inj h
      exact ⟨le_refl now, .inr ⟨hguard.1, hguard.2, message, rfl⟩, .inl rfl, .inl rfl⟩
  | hangsUp =>
      simp only [step, Option.isNone_iff_eq_none] at h
      split_ifs at h with hguard
      obtain rfl := Option.some.inj h
      exact ⟨le_refl now, .inl rfl, .inr hguard, .inl rfl⟩
  | ends panicked =>
      simp only [step, Option.isNone_iff_eq_none] at h
      split_ifs at h with hguard
      obtain rfl := Option.some.inj h
      exact ⟨le_refl now, .inl rfl, .inl rfl, .inr ⟨hguard.2, panicked, rfl⟩⟩

theorem evolves_advance (worker : Worker ρ limit) (h : now ≤ later) :
    Evolves now worker later worker :=
  ⟨h, .inl rfl, .inl rfl, .inl rfl⟩

/-- Each step of a worker keeps its order: the end of the channel, then the end of the thread. -/
theorem Inv.step {label : WorkerLabel ρ} (hinv : Inv now worker)
    (h : worker.step now label = some worker') : Inv now worker' := by
  cases label with
  | sends message =>
      simp only [Worker.step] at h
      split_ifs at h with hguard
      obtain rfl := Option.some.inj h
      exact ⟨hinv.hungUp, hinv.ended⟩
  | hangsUp =>
      simp only [Worker.step, Option.isNone_iff_eq_none] at h
      split_ifs at h with hguard
      obtain rfl := Option.some.inj h
      constructor
      · intro time htime
        obtain rfl := Option.some.inj htime
        exact le_refl now
      · intro found hfound
        -- a thread that has ended has dropped its sender
        rcases hinv.ended found hfound with ⟨time, htime, -⟩
        rw [hguard] at htime
        cases htime
  | ends panicked =>
      simp only [Worker.step] at h
      split_ifs at h with hguard
      obtain rfl := Option.some.inj h
      constructor
      · exact hinv.hungUp
      · intro found hfound
        obtain rfl := Option.some.inj hfound
        rcases Option.isSome_iff_exists.mp hguard.1 with ⟨time, htime⟩
        exact ⟨time, htime, hinv.hungUp time htime⟩

theorem Inv.advance (hinv : Inv now worker) (h : now ≤ later) : Inv later worker :=
  ⟨fun time htime => (hinv.hungUp time htime).trans h, hinv.ended⟩

/-- The end of the channel comes before the end of the thread. -/
theorem Inv.notBefore (hinv : Inv now worker) {upTo : Instant limit}
    (h : worker.hungUpAt.all (upTo ≤ ·) = true) : NotBefore upTo worker.ended := by
  intro found hfound
  rcases hinv.ended found hfound with ⟨time, htime, hle⟩
  rw [htime, Option.all_some, decide_eq_true_eq] at h
  exact h.trans hle

/-- A thread that had not ended before a time that is over never ended before it. -/
theorem Evolves.notBefore (h : Evolves now worker later worker') {upTo : Instant limit}
    (hnow : upTo ≤ now) (hbefore : NotBefore upTo worker.ended) : NotBefore upTo worker'.ended := by
  intro found hfound
  rcases h.ended with hsame | ⟨-, panicked, hended⟩
  · rw [hsame] at hfound
    exact hbefore found hfound
  · rw [hended] at hfound
    obtain rfl := Option.some.inj hfound
    exact hnow.trans h.le

/-- A message that had not come before a time that is over never came before it. -/
theorem Evolves.silent (h : Evolves now worker later worker') {upTo : Instant limit}
    (hnow : upTo ≤ now) (hsilent : NotBefore upTo worker.sent) : NotBefore upTo worker'.sent := by
  intro found hfound
  rcases h.sent with hsame | ⟨-, -, message, hsent⟩
  · rw [hsame] at hfound
    exact hsilent found hfound
  · rw [hsent] at hfound
    obtain rfl := Option.some.inj hfound
    exact hnow.trans h.le

/-- A message that was sent stays, and none comes once the channel has ended. -/
theorem Evolves.message (h : Evolves now worker later worker')
    (hsettled : worker.Settled) : worker'.message = worker.message := by
  rcases h.sent with hsame | ⟨hnone, hopen, -⟩
  · rw [Worker.message, hsame, Worker.message]
  · rcases hsettled with hsettled | hsettled
    · exact absurd hnone hsettled
    · exact absurd hopen hsettled

theorem Evolves.hungUp_ne_none (h : Evolves now worker later worker')
    (hsome : worker.hungUpAt ≠ none) : worker'.hungUpAt ≠ none := by
  rcases h.hungUp with hsame | hnone
  · rwa [hsame]
  · exact absurd hnone hsome

end Worker

/-! ## What a wait reports -/

/-- What a wait has reported, and where the thread is: left running with its message, joined with
its own result, or with the reaper, since in time it had neither sent anything nor ended, or had
not ended. -/
inductive WaitReport (R : WaitReports ρ ε) (now : Instant limit) (worker : Worker ρ limit)
    (wait : WorkerWait ρ ε limit) (result : Except ε Unit) : Prop where
  | kept {message : ρ} (hhandle : wait.handle = .held) (hmessage : worker.message = some message)
      (hkeeps : R.keeps message = true) (hresult : result = R.result message)
  | joined {panicked : Bool} {time : Instant limit} (hhandle : wait.handle = .joined)
      (hended : worker.ended = some (panicked, time))
      (hresult : result = R.joined worker.message panicked)
  | elapsed (hhandle : wait.handle = .deferred) (hover : wait.deadline.at_ ≤ now)
      (hsilent : NotBefore wait.deadline.at_ worker.sent)
      (hlate : NotBefore wait.deadline.at_ worker.ended)
      (hresult : result = .error (R.timedOut wait.budget))
  | deferred (hhandle : wait.handle = .deferred) (hover : wait.deadline.at_ ≤ now)
      (hlate : NotBefore wait.deadline.at_ worker.ended) (hsettled : worker.Settled)
      (hresult : result = .error (R.deferred worker.message wait.budget))

/-- What is known at a stage of a wait. -/
def WorkerWait.Inv (R : WaitReports ρ ε) (now : Instant limit) (worker : Worker ρ limit)
    (wait : WorkerWait ρ ε limit) : Prop :=
  match wait.stage with
  | .measuring => wait.handle = .held
  | .receiving upTo => wait.handle = .held ∧ ∀ time, upTo = some time → wait.deadline.at_ ≤ time
  | .joining received => wait.handle = .held ∧ received = worker.message ∧ worker.Settled
  | .returned result => WaitReport R now worker wait result

section Waits

variable {R : WaitReports ρ ε} {now later : Instant limit} {worker worker' : Worker ρ limit}
  {wait wait' : WorkerWait ρ ε limit}

theorem Worker.Inv.settled_of_ended (h : worker.Inv now) {found : Bool × Instant limit}
    (hended : worker.ended = some found) : worker.Settled := by
  rcases h.ended found hended with ⟨time, htime, -⟩
  right
  rw [htime]
  exact Option.some_ne_none _

theorem Worker.Evolves.settled (h : worker.Evolves now later worker') (hsettled : worker.Settled) :
    worker'.Settled := by
  rcases hsettled with hsent | hhungUp
  · left
    rcases h.sent with hsame | ⟨hnone, -⟩
    · rwa [hsame]
    · exact absurd hnone hsent
  · exact .inr (h.hungUp_ne_none hhungUp)

/-- A report stays true, whatever the worker does later. -/
theorem WaitReport.evolves {result : Except ε Unit} (h : WaitReport R now worker wait result)
    (hinv : worker.Inv now) (hlater : worker.Evolves now later worker') :
    WaitReport R later worker' wait result := by
  cases h with
  | kept hhandle hmessage hkeeps hresult =>
      have hsent : worker.sent ≠ none := by
        intro hnone
        rw [Worker.message, hnone] at hmessage
        cases hmessage
      exact .kept hhandle ((hlater.message (.inl hsent)).trans hmessage) hkeeps hresult
  | joined hhandle hended hresult =>
      have hsame : worker'.ended = worker.ended := by
        rcases hlater.ended with hsame | ⟨hnone, -⟩
        · exact hsame
        · rw [hnone] at hended
          cases hended
      refine .joined hhandle (hsame.trans hended) ?_
      rw [hlater.message (hinv.settled_of_ended hended)]
      exact hresult
  | elapsed hhandle hover hsilent hlate hresult =>
      -- later events are later than the deadline
      exact .elapsed hhandle (hover.trans hlater.le) (hlater.silent hover hsilent)
        (hlater.notBefore hover hlate) hresult
  | deferred hhandle hover hlate hsettled hresult =>
      refine .deferred hhandle (hover.trans hlater.le) (hlater.notBefore hover hlate)
        (hlater.settled hsettled) ?_
      rw [hlater.message hsettled]
      exact hresult

/-- What is known of a wait stays true, whatever its worker does. -/
theorem WorkerWait.Inv.evolves (h : WorkerWait.Inv R now worker wait) (hinv : worker.Inv now)
    (hlater : worker.Evolves now later worker') : WorkerWait.Inv R later worker' wait := by
  unfold WorkerWait.Inv at *
  split at h
  · exact h
  · exact h
  · refine ⟨h.1, ?_, hlater.settled h.2.2⟩
    rw [hlater.message h.2.2]
    exact h.2.1
  · exact WaitReport.evolves h hinv hlater

/-- The end of what remains is not before the deadline. -/
theorem deadline_le_upTo {deadline : ShutdownDeadline limit} {first upTo : Instant limit}
    (hfirst : first ≤ now) (h : now.checkedAdd (deadline.remaining first) = some upTo) :
    deadline.at_ ≤ upTo := by
  unfold Instant.checkedAdd at h
  split at h
  · obtain rfl := Option.some.inj h
    rw [Instant.le_iff] at hfirst ⊢
    simp only [ShutdownDeadline.remaining, Instant.saturatingDurationSince]
    omega
  · cases h

/-- Each step of a wait keeps what is known of it. -/
theorem WorkerWait.Inv.step (h : WorkerWait.Inv R now worker wait) (hinv : worker.Inv now)
    (hstep : wait.Steps R now worker wait') : WorkerWait.Inv R now worker wait' := by
  cases hstep with
  | measures hstage hfirst =>
      -- from here the end of the receive is not before the deadline
      rw [WorkerWait.Inv, hstage] at h
      exact ⟨h, fun upTo hupTo => deadline_le_upTo hfirst hupTo⟩
  | keeps hstage hsent hkeeps =>
      rw [WorkerWait.Inv, hstage] at h
      refine .kept h.1 ?_ hkeeps rfl
      rw [Worker.message, hsent]
      rfl
  | receives hstage hsent =>
      rw [WorkerWait.Inv, hstage] at h
      refine ⟨h.1, ?_, .inl ?_⟩
      · rw [Worker.message, hsent]
        rfl
      · rw [hsent]
        exact Option.some_ne_none _
  | disconnects hstage hsent hhungUp =>
      rw [WorkerWait.Inv, hstage] at h
      refine ⟨h.1, ?_, .inr hhungUp⟩
      rw [Worker.message, hsent]
      rfl
  | elapses hstage hover hsent hhungUp =>
      -- neither a message nor the end came in time
      rw [WorkerWait.Inv, hstage] at h
      have hdeadline := h.2 _ rfl
      refine .elapsed rfl (hdeadline.trans hover) ?_ ?_ rfl
      · intro found hfound
        exact hdeadline.trans (hsent found hfound)
      · intro found hfound
        exact hdeadline.trans (hinv.notBefore hhungUp found hfound)
  | joins hstage hended =>
      -- the thread has ended, so the join returns
      rw [WorkerWait.Inv, hstage] at h
      refine .joined rfl hended ?_
      rw [h.2.1]
  | defers hstage hover hended =>
      rw [WorkerWait.Inv, hstage] at h
      refine .deferred rfl hover ?_ h.2.2 ?_
      · intro found hfound
        rw [hended] at hfound
        cases hfound
      · rw [h.2.1]
        rfl

/-- A wait that leaves nothing running succeeds exactly when it has joined the thread, which did not
panic and whose message is a success. -/
theorem WaitReport.ok_iff {result : Except ε Unit} (h : WaitReport R now worker wait result)
    (hkeeps : ∀ message, R.keeps message = false) :
    result = .ok () ↔ wait.handle = .joined ∧ (∃ time, worker.ended = some (false, time)) ∧
      ∃ message, worker.message = some message ∧ R.result message = .ok () := by
  cases h with
  | kept hhandle hmessage hkept hresult =>
      rw [hkeeps] at hkept
      cases hkept
  | joined hhandle hended hresult =>
      rename_i panicked time
      subst hresult
      simp only [hhandle, hended, true_and]
      cases panicked with
      -- a panic is an error whatever was sent
      | true => simp [WaitReports.joined]
      | false =>
          cases hmessage : worker.message with
          | none => simp [WaitReports.joined]
          | some message => simp [WaitReports.joined]
  | elapsed hhandle hover hsilent hlate hresult => simp [hresult, hhandle]
  | deferred hhandle hover hlate hsettled hresult => simp [hresult, hhandle]

/-- A wait that keeps nothing has given its handle away. -/
theorem WaitReport.handle_ne_held {result : Except ε Unit}
    (h : WaitReport R now worker wait result) (hkeeps : ∀ message, R.keeps message = false) :
    wait.handle ≠ .held := by
  cases h with
  | kept hhandle hmessage hkept hresult =>
      rw [hkeeps] at hkept
      cases hkept
  | joined hhandle | elapsed hhandle | deferred hhandle =>
      rw [hhandle]
      exact WorkerHandle.noConfusion

/-- A thread is handed to the reaper only when it had not ended before the deadline. -/
theorem WaitReport.notBefore {result : Except ε Unit} (h : WaitReport R now worker wait result)
    (hdeferred : wait.handle = .deferred) : NotBefore wait.deadline.at_ worker.ended := by
  cases h with
  | kept hhandle | joined hhandle =>
      rw [hhandle] at hdeferred
      cases hdeferred
  | elapsed hhandle hover hsilent hlate hresult => exact hlate
  | deferred hhandle hover hlate hsettled hresult => exact hlate

end Waits

/-! ## A wait ends -/

namespace WorkerWait

variable {R : WaitReports ρ ε} {now : Instant limit} {worker : Worker ρ limit}
  {wait wait' : WorkerWait ρ ε limit}

/-- The steps that a wait has still to take, at most. -/
def rank (wait : WorkerWait ρ ε limit) : Nat :=
  match wait.stage with
  | .measuring => 3
  | .receiving _ => 2
  | .joining _ => 1
  | .returned _ => 0

/-- The time of the stage that a wait is at is not over. -/
def InTime (wait : WorkerWait ρ ε limit) (now : Instant limit) : Prop :=
  match wait.stage with
  | .receiving upTo => ∀ time, upTo = some time → now < time
  | .joining _ => now < wait.deadline.at_
  | .measuring | .returned _ => False

def Returned (wait : WorkerWait ρ ε limit) : Prop := ∃ result, wait.stage = .returned result

theorem Steps.rank_lt (h : wait.Steps R now worker wait') : wait'.rank < wait.rank := by
  cases h with
  | measures hstage | keeps hstage | receives hstage | disconnects hstage | elapses hstage
  | joins hstage | defers hstage =>
      rw [rank, rank, hstage]
      simp only
      omega

theorem Steps.deadline_eq (h : wait.Steps R now worker wait') : wait'.deadline = wait.deadline := by
  cases h with
  | measures | keeps | receives | disconnects | elapses | joins | defers => rfl

/-- A wait that cannot go on has returned, or waits for a thread that has not ended, in time. -/
theorem returned_or_inTime (hinv : worker.Inv now)
    (hstuck : ∀ label, wait.step R now worker label = none) :
    wait.Returned ∨ worker.ended = none ∧ wait.InTime now := by
  unfold InTime
  cases hstage : wait.stage with
  | measuring =>
      -- the clock can be read at any time
      have hnone := hstuck (.measures now)
      simp [step, hstage] at hnone
  | receiving upTo =>
      right
      have hsent : worker.sent = none := by
        have hnone := hstuck .receives
        cases hsent : worker.sent with
        | none => rfl
        | some found =>
            simp only [step, hstage, hsent] at hnone
            split_ifs at hnone
      have hhungUp : worker.hungUpAt = none := by
        have hnone := hstuck .disconnects
        simpa [step, hstage, hsent] using hnone
      constructor
      · by_contra hended
        rcases Option.ne_none_iff_exists'.mp hended with ⟨found, hfound⟩
        rcases hinv.ended found hfound with ⟨time, htime, -⟩
        rw [hhungUp] at htime
        cases htime
      · rintro time rfl
        have hnone := hstuck .elapses
        simpa [step, hstage, hsent, hhungUp] using hnone
  | joining received =>
      -- the time is not over, or the handle would be handed over
      right
      have hended : worker.ended = none := by
        have hnone := hstuck .joins
        cases hended : worker.ended with
        | none => rfl
        | some found => simp [step, hstage, hended] at hnone
      have hnone := hstuck .defers
      refine ⟨hended, ?_⟩
      simpa [step, hstage, hended] using hnone
  | returned result => exact .inl ⟨result, hstage⟩

end WorkerWait

/-! ## One worker and its owner -/

/-- A worker, the clock, and a wait once it has begun. -/
structure WorkerRun (ρ ε : Type) (limit : Nat) where
  now : Instant limit
  worker : Worker ρ limit := {}
  wait : Option (WorkerWait ρ ε limit) := none

inductive WorkerRunLabel (ρ : Type) (limit : Nat) where
  | advance (later : Instant limit)
  | worker (label : WorkerLabel ρ)
  | begins (first : Instant limit) (budget : Nat)
  | wait (label : WaitLabel limit)
deriving DecidableEq

namespace WorkerRun

def step (R : WaitReports ρ ε) (s : WorkerRun ρ ε limit) :
    WorkerRunLabel ρ limit → Option (WorkerRun ρ ε limit)
  | .advance later => if s.now ≤ later then some { s with now := later } else none
  | .worker label => (s.worker.step s.now label).map fun worker => { s with worker }
  | .begins first budget =>
      if s.wait.isNone ∧ first ≤ s.now then
        some { s with wait := some { deadline := .after first s.now budget } }
      else none
  | .wait label => s.wait.bind fun wait =>
      (wait.step R s.now s.worker label).map fun wait => { s with wait := some wait }

/-- The steps of the wait. -/
def ofWait : WorkerRunLabel ρ limit → Prop
  | .wait _ => True
  | .advance _ | .worker _ | .begins _ _ => False

structure Inv (R : WaitReports ρ ε) (s : WorkerRun ρ ε limit) : Prop where
  worker : s.worker.Inv s.now
  wait : ∀ wait, s.wait = some wait → WorkerWait.Inv R s.now s.worker wait

variable {R : WaitReports ρ ε} {s s' : WorkerRun ρ ε limit}

/-- Each step of a worker and its owner keeps what is known of both. -/
theorem step_inv {label : WorkerRunLabel ρ limit} (h : s.step R label = some s')
    (hinv : Inv R s) : Inv R s' := by
  cases label with
  | advance later =>
      simp only [step] at h
      split_ifs at h with hlater
      obtain rfl := Option.some.inj h
      constructor
      · exact hinv.worker.advance hlater
      · intro wait hwait
        exact (hinv.wait wait hwait).evolves hinv.worker (Worker.evolves_advance s.worker hlater)
  | worker label =>
      rcases Option.map_eq_some_iff.mp h with ⟨worker, hworker, rfl⟩
      constructor
      · exact hinv.worker.step hworker
      · intro wait hwait
        exact (hinv.wait wait hwait).evolves hinv.worker (Worker.evolves_of_step hworker)
  | begins first budget =>
      simp only [step] at h
      split_ifs at h with hguard
      obtain rfl := Option.some.inj h
      refine ⟨hinv.worker, ?_⟩
      intro wait hwait
      obtain rfl := Option.some.inj hwait
      exact rfl
  | wait label =>
      rcases Option.bind_eq_some_iff.mp h with ⟨wait, hwait, hmap⟩
      rcases Option.map_eq_some_iff.mp hmap with ⟨wait', hstep, rfl⟩
      refine ⟨hinv.worker, ?_⟩
      intro other hother
      obtain rfl := Option.some.inj hother
      exact (hinv.wait wait hwait).step hinv.worker (WorkerWait.steps_of_step hstep)

def rank (s : WorkerRun ρ ε limit) : Nat := s.wait.elim 0 WorkerWait.rank

/-- A step of the wait brings it closer to its end. -/
theorem rank_step {label : WorkerRunLabel ρ limit} (hown : ofWait label)
    (h : s.step R label = some s') : s'.rank < s.rank := by
  cases label with
  | advance later => cases hown
  | worker label => cases hown
  | begins first budget => cases hown
  | wait label =>
      rcases Option.bind_eq_some_iff.mp h with ⟨wait, hwait, hmap⟩
      rcases Option.map_eq_some_iff.mp hmap with ⟨wait', hstep, rfl⟩
      have hlower := (WorkerWait.steps_of_step hstep).rank_lt
      rw [rank, rank, hwait]
      exact hlower

end WorkerRun

def workerRun (R : WaitReports ρ ε) (limit : Nat) :
    Machine (WorkerRun ρ ε limit) (WorkerRunLabel ρ limit) where
  step := WorkerRun.step R

/-- In every run of a worker and a wait for it: what the wait reports is one of the reports, the
steps of the wait are three at most, and where it cannot go on, it has returned, or its time is not
over and the thread has not ended. -/
theorem worker_wait (R : WaitReports ρ ε) {now : Instant limit}
    {trace : List (WorkerRunLabel ρ limit)} {s : WorkerRun ρ ε limit}
    (hrun : (workerRun R limit).run { now } trace = some s) {wait : WorkerWait ρ ε limit}
    (hwait : s.wait = some wait) :
    (∀ result, wait.stage = .returned result → WaitReport R s.now s.worker wait result) ∧
    (∀ more s', (∀ label ∈ more, WorkerRun.ofWait label) →
      (workerRun R limit).run s more = some s' → more.length ≤ 3) ∧
    ((workerRun R limit).Quiet WorkerRun.ofWait s →
      wait.Returned ∨ s.worker.ended = none ∧ wait.InTime s.now) := by
  have hstep : ∀ (before : WorkerRun ρ ε limit) label after,
      (workerRun R limit).step before label = some after → before.Inv R → after.Inv R := by
    intro before label after hstep hbefore
    exact WorkerRun.step_inv hstep hbefore
  have hstart : WorkerRun.Inv R ({ now } : WorkerRun ρ ε limit) := by
    refine ⟨⟨?_, ?_⟩, ?_⟩
    · intro time htime
      cases htime
    · intro found hfound
      cases hfound
    · intro other hother
      cases hother
  have hinv := Machine.run_invariant hstep hrun hstart
  refine ⟨?_, ?_, ?_⟩
  · intro result hresult
    have hknown := hinv.wait wait hwait
    rwa [WorkerWait.Inv, hresult] at hknown
  · intro more s' hown hmore
    have hlower : ∀ (before : WorkerRun ρ ε limit) label after, WorkerRun.ofWait label →
        (workerRun R limit).step before label = some after → after.rank < before.rank := by
      intro before label after hown hstep
      exact WorkerRun.rank_step hown hstep
    have hlength := Machine.length_le_rank hlower hown hmore
    have hrank : s.rank ≤ 3 := by
      rw [WorkerRun.rank, hwait, Option.elim_some, WorkerWait.rank]
      split
      all_goals omega
    omega
  · intro hquiet
    apply WorkerWait.returned_or_inTime (R := R) hinv.worker
    intro label
    have hnone := hquiet (.wait label) trivial
    simpa [workerRun, WorkerRun.step, hwait] using hnone

/-- An instant of a clock that runs up to ten. -/
def upToTen (nanos : Nat) : Instant 10 := ⟨min 10 nanos, Nat.min_le_left _ _⟩

/-- A worker that sends its result and does not end before the deadline. -/
def lingeringWorker : List (WorkerRunLabel (Except SshFixtureError Unit) 10) :=
  [.begins (upToTen 0) 5, .wait (.measures (upToTen 0)), .worker (.sends (.ok ())),
    .wait .receives, .worker .hangsUp, .advance (upToTen 5), .wait .defers]

/-- The report of a wait whose worker goes on behind the deadline. -/
theorem worker_wait_lingeringWorker :
    ∃ s wait, (workerRun WaitReports.serverStop 10).run { now := upToTen 0 } lingeringWorker =
        some s ∧ s.wait = some wait ∧
      WaitReport WaitReports.serverStop s.now s.worker wait
        (.error (.timedOut "worker join" ⟨5⟩)) := by
  let wait : WorkerWait (Except SshFixtureError Unit) SshFixtureError 10 :=
    { deadline := ⟨upToTen 5, 5⟩
      stage := .returned (.error (.timedOut "worker join" ⟨5⟩))
      handle := .deferred }
  have hresult : ((workerRun WaitReports.serverStop 10).run { now := upToTen 0 }
      lingeringWorker).map WorkerRun.wait = some (some wait) := rfl
  rcases Option.map_eq_some_iff.mp hresult with ⟨s, hrun, hwait⟩
  exact ⟨s, wait, hrun, hwait, (worker_wait _ hrun hwait).1 _ rfl⟩

/-! ## The server and its agent -/

/-- `map_agent_teardown_error`. -/
def mapAgentTeardownError (source : FixtureIoError) (budget : Duration) : SshFixtureError :=
  if source.kind = .timedOut then .timedOut "agent teardown" budget
  else .io "agent teardown failed" source

/-- A `HermeticSshServer` that is stopped: its worker, the one of its agent, and the waits for the
two. -/
structure ServerStop (limit : Nat) where
  now : Instant limit
  ssh : Worker (Except SshFixtureError Unit) limit := {}
  agent : Worker (Except FixtureIoError Unit) limit := {}
  sshWait : Option (WorkerWait (Except SshFixtureError Unit) SshFixtureError limit) := none
  agentWait : Option (WorkerWait (Except FixtureIoError Unit) FixtureIoError limit) := none

inductive ServerStopLabel (limit : Nat) where
  | advance (later : Instant limit)
  | ssh (label : WorkerLabel (Except SshFixtureError Unit))
  | agent (label : WorkerLabel (Except FixtureIoError Unit))
  | stops (first : Instant limit) (budget : Nat)
  | sshWait (label : WaitLabel limit)
  | stopsAgent
  | agentWait (label : WaitLabel limit)
deriving DecidableEq

namespace ServerStop

/-- What `stop_ssh_worker` has returned. -/
def primary (s : ServerStop limit) : Option (Except SshFixtureError Unit) :=
  match s.sshWait with
  | some { stage := .returned result, .. } => some result
  | _ => none

/-- What `stop_until` of the agent has returned. -/
def agentResult (s : ServerStop limit) : Option (Except SshFixtureError Unit) :=
  match s.agentWait with
  | some { stage := .returned result, deadline, .. } =>
      some (result.mapError fun source => mapAgentTeardownError source ⟨deadline.budget⟩)
  | _ => none

/-- What `stop_inner` returns. -/
def result (s : ServerStop limit) : Option (Except SshFixtureError Unit) :=
  match s.primary, s.agentResult with
  | some (.error primary), some _ => some (.error primary)
  | some (.ok ()), some result => some result
  | _, _ => none

/-- `stop_inner`: one deadline, and the agent is stopped whatever the first wait has returned. -/
def step (s : ServerStop limit) : ServerStopLabel limit → Option (ServerStop limit)
  | .advance later => if s.now ≤ later then some { s with now := later } else none
  | .ssh label => (s.ssh.step s.now label).map fun ssh => { s with ssh }
  | .agent label => (s.agent.step s.now label).map fun agent => { s with agent }
  | .stops first budget =>
      if s.sshWait.isNone ∧ first ≤ s.now then
        some { s with sshWait := some { deadline := .after first s.now budget } }
      else none
  | .sshWait label => s.sshWait.bind fun wait =>
      (wait.step .serverStop s.now s.ssh label).map fun wait => { s with sshWait := some wait }
  | .stopsAgent =>
      if s.primary.isSome ∧ s.agentWait.isNone then
        s.sshWait.map fun wait => { s with agentWait := some { deadline := wait.deadline } }
      else none
  | .agentWait label => s.agentWait.bind fun wait =>
      (wait.step .agentStop s.now s.agent label).map fun wait => { s with agentWait := some wait }

structure Inv (s : ServerStop limit) : Prop where
  ssh : s.ssh.Inv s.now
  agent : s.agent.Inv s.now
  sshWait : ∀ wait, s.sshWait = some wait → WorkerWait.Inv .serverStop s.now s.ssh wait
  agentWait : ∀ wait, s.agentWait = some wait → WorkerWait.Inv .agentStop s.now s.agent wait ∧
    ∃ sshWait, s.sshWait = some sshWait ∧ sshWait.deadline = wait.deadline

end ServerStop

namespace ServerStop

variable {s s' : ServerStop limit}

/-- Each step of a server that is stopped keeps the invariant. -/
theorem step_inv {label : ServerStopLabel limit} (h : s.step label = some s') (hinv : s.Inv) :
    s'.Inv := by
  cases label with
  | advance later =>
      simp only [step] at h
      split_ifs at h with hlater
      obtain rfl := Option.some.inj h
      refine ⟨hinv.ssh.advance hlater, hinv.agent.advance hlater, ?_, ?_⟩
      · intro wait hwait
        exact (hinv.sshWait wait hwait).evolves hinv.ssh (Worker.evolves_advance s.ssh hlater)
      · intro wait hwait
        rcases hinv.agentWait wait hwait with ⟨hknown, hdeadline⟩
        exact ⟨hknown.evolves hinv.agent (Worker.evolves_advance s.agent hlater), hdeadline⟩
  | ssh label =>
      rcases Option.map_eq_some_iff.mp h with ⟨ssh, hssh, rfl⟩
      refine ⟨hinv.ssh.step hssh, hinv.agent, ?_, hinv.agentWait⟩
      intro wait hwait
      exact (hinv.sshWait wait hwait).evolves hinv.ssh (Worker.evolves_of_step hssh)
  | agent label =>
      rcases Option.map_eq_some_iff.mp h with ⟨agent, hagent, rfl⟩
      refine ⟨hinv.ssh, hinv.agent.step hagent, hinv.sshWait, ?_⟩
      intro wait hwait
      rcases hinv.agentWait wait hwait with ⟨hknown, hdeadline⟩
      exact ⟨hknown.evolves hinv.agent (Worker.evolves_of_step hagent), hdeadline⟩
  | stops first budget =>
      simp only [step, Option.isNone_iff_eq_none] at h
      split_ifs at h with hguard
      obtain rfl := Option.some.inj h
      refine ⟨hinv.ssh, hinv.agent, ?_, ?_⟩
      · intro wait hwait
        obtain rfl := Option.some.inj hwait
        exact rfl
      · intro wait hwait
        rcases hinv.agentWait wait hwait with ⟨-, sshWait, hsome, -⟩
        -- the agent is stopped behind the server
        rw [hguard.1] at hsome
        cases hsome
  | sshWait label =>
      rcases Option.bind_eq_some_iff.mp h with ⟨wait, hwait, hmap⟩
      rcases Option.map_eq_some_iff.mp hmap with ⟨wait', hstep, rfl⟩
      refine ⟨hinv.ssh, hinv.agent, ?_, ?_⟩
      · intro other hother
        obtain rfl := Option.some.inj hother
        exact (hinv.sshWait wait hwait).step hinv.ssh (WorkerWait.steps_of_step hstep)
      · intro agentWait hagentWait
        rcases hinv.agentWait agentWait hagentWait with ⟨hknown, sshWait, hsome, hdeadline⟩
        obtain rfl := Option.some.inj (hwait.symm.trans hsome)
        exact ⟨hknown, wait', rfl, (WorkerWait.steps_of_step hstep).deadline_eq.trans hdeadline⟩
  | stopsAgent =>
      -- the second wait takes over the deadline of the first
      simp only [step] at h
      split_ifs at h with hguard
      rcases Option.map_eq_some_iff.mp h with ⟨sshWait, hsshWait, rfl⟩
      refine ⟨hinv.ssh, hinv.agent, hinv.sshWait, ?_⟩
      intro wait hwait
      obtain rfl := Option.some.inj hwait
      exact ⟨rfl, sshWait, hsshWait, rfl⟩
  | agentWait label =>
      rcases Option.bind_eq_some_iff.mp h with ⟨wait, hwait, hmap⟩
      rcases Option.map_eq_some_iff.mp hmap with ⟨wait', hstep, rfl⟩
      refine ⟨hinv.ssh, hinv.agent, hinv.sshWait, ?_⟩
      intro other hother
      obtain rfl := Option.some.inj hother
      rcases hinv.agentWait wait hwait with ⟨hknown, sshWait, hsshWait, hdeadline⟩
      refine ⟨hknown.step hinv.agent (WorkerWait.steps_of_step hstep), sshWait, hsshWait, ?_⟩
      rw [hdeadline, (WorkerWait.steps_of_step hstep).deadline_eq]

/-- The first wait has returned with its result. -/
theorem primary_eq_some {primary : Except SshFixtureError Unit} (h : s.primary = some primary) :
    ∃ wait, s.sshWait = some wait ∧ wait.stage = .returned primary := by
  unfold ServerStop.primary at h
  split at h
  · rename_i deadline result handle hwait
    obtain rfl := Option.some.inj h
    exact ⟨_, hwait, rfl⟩
  · cases h

/-- The wait for the agent has returned, and its error is mapped. -/
theorem agentResult_eq_some {agentResult : Except SshFixtureError Unit}
    (h : s.agentResult = some agentResult) :
    ∃ wait result, s.agentWait = some wait ∧ wait.stage = .returned result ∧
      agentResult = result.mapError fun source => mapAgentTeardownError source wait.budget := by
  unfold ServerStop.agentResult at h
  split at h
  · rename_i deadline result handle hwait
    obtain rfl := Option.some.inj h
    exact ⟨_, result, hwait, rfl, rfl⟩
  · cases h

/-- The error of the server is reported before that of the agent. -/
theorem result_eq_some {result : Except SshFixtureError Unit} (h : s.result = some result) :
    ∃ primary agentResult, s.primary = some primary ∧ s.agentResult = some agentResult ∧
      result = primary.bind fun _ => agentResult := by
  unfold ServerStop.result at h
  split at h
  · rename_i primary agentResult hprimary hagent
    obtain rfl := Option.some.inj h
    exact ⟨_, agentResult, hprimary, hagent, rfl⟩
  · rename_i agentResult hprimary hagent
    obtain rfl := Option.some.inj h
    exact ⟨_, agentResult, hprimary, hagent, rfl⟩
  · cases h

/-- What is the case once `stop` has returned: both waits were under one deadline and have reported,
neither thread is left with its handle, and the result is the first error, that of the server
before that of the agent. -/
structure Stopped (s : ServerStop limit) (result : Except SshFixtureError Unit)
    (sshWait : WorkerWait (Except SshFixtureError Unit) SshFixtureError limit)
    (agentWait : WorkerWait (Except FixtureIoError Unit) FixtureIoError limit) : Prop where
  deadline : sshWait.deadline = agentWait.deadline
  handles : sshWait.handle ≠ .held ∧ agentWait.handle ≠ .held
  sshLate : sshWait.handle = .deferred → NotBefore sshWait.deadline.at_ s.ssh.ended
  agentLate : agentWait.handle = .deferred → NotBefore sshWait.deadline.at_ s.agent.ended
  reports : ∃ primary agentResult, WaitReport .serverStop s.now s.ssh sshWait primary ∧
    WaitReport .agentStop s.now s.agent agentWait agentResult ∧
    result = primary.bind fun _ =>
      agentResult.mapError fun source => mapAgentTeardownError source agentWait.budget
  ok_iff : result = .ok () ↔
    (sshWait.handle = .joined ∧ (∃ time, s.ssh.ended = some (false, time)) ∧
      s.ssh.message = some (.ok ())) ∧
    (agentWait.handle = .joined ∧ (∃ time, s.agent.ended = some (false, time)) ∧
      s.agent.message = some (.ok ()))

/-- Nothing has happened to the two workers at the start. -/
theorem start_inv (now : Instant limit) : Inv ({ now } : ServerStop limit) := by
  refine ⟨⟨?_, ?_⟩, ⟨?_, ?_⟩, ?_, ?_⟩
  · intro time htime
    cases htime
  · intro found hfound
    cases hfound
  · intro time htime
    cases htime
  · intro found hfound
    cases hfound
  · intro wait hwait
    cases hwait
  · intro wait hwait
    cases hwait

end ServerStop

def serverStop (limit : Nat) : Machine (ServerStop limit) (ServerStopLabel limit) where
  step := ServerStop.step

/-- Whatever the two workers do, and whenever they do it: when `stop` has returned, each thread was
joined, or handed over since it had not ended by the one deadline, and the result is a success
exactly when both threads were joined, without a panic and with a success. -/
theorem server_stop {now : Instant limit} {trace : List (ServerStopLabel limit)}
    {s : ServerStop limit} (hrun : (serverStop limit).run { now } trace = some s)
    {result : Except SshFixtureError Unit} (hresult : s.result = some result) :
    ∃ sshWait agentWait, s.sshWait = some sshWait ∧ s.agentWait = some agentWait ∧
      s.Stopped result sshWait agentWait := by
  have hstep : ∀ (before : ServerStop limit) label after,
      (serverStop limit).step before label = some after → before.Inv → after.Inv := by
    intro before label after hstep hbefore
    exact ServerStop.step_inv hstep hbefore
  have hinv := Machine.run_invariant hstep hrun (ServerStop.start_inv now)
  rcases ServerStop.result_eq_some hresult with ⟨primary, mapped, hprimary, hmapped, rfl⟩
  rcases ServerStop.primary_eq_some hprimary with ⟨sshWait, hsshWait, hsshStage⟩
  rcases ServerStop.agentResult_eq_some hmapped with
    ⟨agentWait, agentResult, hagentWait, hagentStage, rfl⟩
  have hssh := hinv.sshWait sshWait hsshWait
  rw [WorkerWait.Inv, hsshStage] at hssh
  rcases hinv.agentWait agentWait hagentWait with ⟨hagent, other, hother, hdeadline⟩
  rw [WorkerWait.Inv, hagentStage] at hagent
  obtain rfl := Option.some.inj (hsshWait.symm.trans hother)
  refine ⟨sshWait, agentWait, hsshWait, hagentWait, hdeadline, ?_, ?_, ?_, ?_, ?_⟩
  · exact ⟨hssh.handle_ne_held fun _ => rfl, hagent.handle_ne_held fun _ => rfl⟩
  · exact hssh.notBefore
  · rw [hdeadline]
    exact hagent.notBefore
  · exact ⟨primary, agentResult, hssh, hagent, rfl⟩
  · have hsshOk := hssh.ok_iff fun _ => rfl
    have hagentOk := hagent.ok_iff fun _ => rfl
    simp only [WaitReports.serverStop, id, exists_eq_right] at hsshOk
    simp only [WaitReports.agentStop, id, exists_eq_right] at hagentOk
    rw [← hsshOk, ← hagentOk]
    cases primary with
    | error error => simp [Except.bind]
    | ok =>
        cases agentResult with
        | error source => simp [Except.bind, Except.mapError]
        | ok => simp [Except.bind, Except.mapError]

/-- The server stops in time, and its agent does not. -/
def lingeringAgent : List (ServerStopLabel 10) :=
  [.stops (upToTen 0) 5, .sshWait (.measures (upToTen 0)), .ssh (.sends (.ok ())),
    .sshWait .receives, .ssh .hangsUp, .ssh (.ends false), .sshWait .joins, .stopsAgent,
    .agentWait (.measures (upToTen 0)), .advance (upToTen 6), .agentWait .elapses]

theorem server_stop_lingeringAgent :
    ∃ s sshWait agentWait, (serverStop 10).run { now := upToTen 0 } lingeringAgent = some s ∧
      s.sshWait = some sshWait ∧ s.agentWait = some agentWait ∧
      s.Stopped (.error (.timedOut "agent teardown" ⟨5⟩)) sshWait agentWait := by
  have hresult : ((serverStop 10).run { now := upToTen 0 } lingeringAgent).map ServerStop.result =
      some (some (.error (.timedOut "agent teardown" ⟨5⟩))) := rfl
  rcases Option.map_eq_some_iff.mp hresult with ⟨s, hrun, hsome⟩
  rcases server_stop hrun hsome with ⟨sshWait, agentWait, hwaits⟩
  exact ⟨s, sshWait, agentWait, hrun, hwaits⟩

end Rssh
