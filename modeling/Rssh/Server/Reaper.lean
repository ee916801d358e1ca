import Rssh.Lib.Machine
import Rssh.Lib.Slots

/-!
# The process reaper

What a fixture may not wait for any longer, a task or a thread, is handed to a reaper thread, which
the whole process shares and which the first call starts. The machine `processReaper` takes one
label per atomic operation: `ensure_process_reaper` runs under its lock, the sender is cloned under
it again, and the send, the loop of the reaper and the ends of futures and threads come in any
order.

* `process_reaper_custody` says where each job is, and that the loop of the reaper never ends.
* `process_reaper_settles` says that nothing but what has not ended is left, after a bounded number
  of steps.
-/

namespace Rssh

variable {φ ω : Type}

/-- A future that is polled to its end, or a thread that is joined. -/
inductive ReapJob (φ ω : Type) where
  | async (future : φ)
  | thread (worker : ω)
deriving DecidableEq, Repr

/-- A thread in `run_process_reaper`: its channel, and the tasks of its `JoinSet`, of which the
complete ones wait for `join_next`. -/
structure ReaperThread (φ ω : Type) where
  alive : Bool := true
  queue : List (ReapJob φ ω) := []
  running : List (ReapJob φ ω) := []
  complete : List (ReapJob φ ω) := []
deriving DecidableEq

/-- Where a call that hands a job over is. -/
inductive DeferStage where
  | ensure
  | clone
  | send (reaper : Nat)
  /-- There was no sender to clone. -/
  | panicked
deriving DecidableEq, Repr

/-- A call that hands a job over, with the attempts that it has left, this one included. -/
structure DeferCall (φ ω : Type) where
  job : ReapJob φ ω
  attempts : Nat
  stage : DeferStage := .ensure
deriving DecidableEq

/-- `PROCESS_REAPER` and `PROCESS_REAPER_RETAINED_THREADS`, the reapers that were started, and the
calls in progress. All the jobs of calls are in `handed`; `dropped` has the futures that no reaper
polls. -/
structure ProcessReaper (φ ω : Type) where
  sender : Option Nat := none
  retained : List ω := []
  reapers : List (ReaperThread φ ω) := []
  calls : List (DeferCall φ ω) := []
  ended : List (ReapJob φ ω) := []
  reaped : List (ReapJob φ ω) := []
  dropped : List φ := []
  handed : List (ReapJob φ ω) := []

inductive ReaperLabel (φ ω : Type) where
  | ensure (starts : Bool)
  | deferThread (worker : ω)
  | deferFuture (future : φ)
  | deferTask (future : φ)
  | ensures (call : Nat) (starts : Bool)
  | clones (call : Nat)
  | sends (call : Nat)
  | ends (job : ReapJob φ ω)
  | receives (reaper : Nat)
  | completes (reaper : Nat) (job : ReapJob φ ω)
  | joinsNext (reaper : Nat) (job : ReapJob φ ω)
  | breaks (reaper : Nat)
deriving DecidableEq

namespace ProcessReaper

/-- The receiver of the channel has not been dropped. -/
def isOpen (s : ProcessReaper φ ω) (reaper : Nat) : Bool :=
  s.reapers[reaper]?.any ReaperThread.alive

/-- `ensure_process_reaper`; `starts` says whether the runtime can be built and the thread spawned.
-/
def ensureProcessReaper (s : ProcessReaper φ ω) (starts : Bool) : Bool × ProcessReaper φ ω :=
  if s.sender.any s.isOpen then (true, s)
  else if starts then
    (true, { s with reapers := s.reapers ++ [{}], sender := some s.reapers.length })
  else (false, s)

def begin (s : ProcessReaper φ ω) (job : ReapJob φ ω) (attempts : Nat) : ProcessReaper φ ω :=
  { s with calls := s.calls ++ [{ job, attempts }], handed := s.handed ++ [job] }

def setCall (s : ProcessReaper φ ω) (call : Nat) (state : DeferCall φ ω) : ProcessReaper φ ω :=
  { s with calls := s.calls.set call state }

def setReaper (s : ProcessReaper φ ω) (reaper : Nat) (state : ReaperThread φ ω) :
    ProcessReaper φ ω :=
  { s with reapers := s.reapers.set reaper state }

/-- An attempt has failed. Behind the last one, `defer_thread` retains the thread, and a future that
`defer_future` has given back is dropped. -/
def giveUp (s : ProcessReaper φ ω) (call : Nat) (state : DeferCall φ ω) : ProcessReaper φ ω :=
  if 1 < state.attempts then
    s.setCall call { state with attempts := state.attempts - 1, stage := .ensure }
  else
    let calls := s.calls.eraseIdx call
    match state.job with
    | .thread worker => { s with calls, retained := s.retained ++ [worker] }
    | .async future => { s with calls, dropped := s.dropped ++ [future] }

variable [DecidableEq φ] [DecidableEq ω]

/-- One step of the calls of `defer_thread`, `defer_future` and `OwnedTask::defer`, which makes two
attempts, of the reapers, or of the jobs themselves. -/
def step (s : ProcessReaper φ ω) : ReaperLabel φ ω → Option (ProcessReaper φ ω)
  | .ensure starts => some (s.ensureProcessReaper starts).2
  | .deferThread worker => some (s.begin (.thread worker) 2)
  | .deferFuture future => some (s.begin (.async future) 1)
  | .deferTask future => some (s.begin (.async future) 2)
  | .ensures call starts =>
      match s.calls[call]? with
      | some state =>
          if state.stage = .ensure then
            match s.ensureProcessReaper starts with
            | (true, s) => some (s.setCall call { state with stage := .clone })
            | (false, s) => some (s.giveUp call state)
          else none
      | none => none
  | .clones call =>
      match s.calls[call]? with
      | some state =>
          if state.stage = .clone then
            match s.sender with
            | some reaper => some (s.setCall call { state with stage := .send reaper })
            | none => some (s.setCall call { state with stage := .panicked })
          else none
      | none => none
  | .sends call =>
      match s.calls[call]? with
      | some state =>
          match state.stage with
          | .send reaper =>
              match s.reapers[reaper]? with
              | some thread =>
                  if thread.alive then
                    some { s.setReaper reaper { thread with queue := thread.queue ++ [state.job] }
                      with calls := s.calls.eraseIdx call }
                  else some (s.giveUp call state)
              | none => some (s.giveUp call state)
          | _ => none
      | none => none
  | .ends job => some { s with ended := s.ended ++ [job] }
  | .receives reaper =>
      match s.reapers[reaper]? with
      | some thread =>
          match thread.queue with
          | job :: queue =>
              if thread.alive then
                some (s.setReaper reaper { thread with queue, running := thread.running ++ [job] })
              else none
          | [] => none
      | none => none
  | .completes reaper job =>
      match s.reapers[reaper]? with
      | some thread =>
          -- `reap_thread` joins a thread only when it has ended
          if thread.alive ∧ job ∈ thread.running ∧ job ∈ s.ended then
            some (s.setReaper reaper
              { thread with
                running := thread.running.erase job
                complete := thread.complete ++ [job] })
          else none
      | none => none
  | .joinsNext reaper job =>
      match s.reapers[reaper]? with
      | some thread =>
          if thread.alive ∧ job ∈ thread.complete then
            some { s.setReaper reaper { thread with complete := thread.complete.erase job } with
              reaped := s.reaped ++ [job] }
          else none
      | none => none
  | .breaks reaper =>
      match s.reapers[reaper]? with
      | some thread =>
          -- `recv` gives nothing only when no sender is left
          if thread.alive ∧ thread.queue = [] ∧ thread.running = [] ∧ thread.complete = [] ∧
              s.sender ≠ some reaper ∧ ∀ call ∈ s.calls, call.stage ≠ .send reaper then
            some (s.setReaper reaper { thread with alive := false })
          else none
      | none => none

end ProcessReaper

def processReaper (φ ω : Type) [DecidableEq φ] [DecidableEq ω] :
    Machine (ProcessReaper φ ω) (ReaperLabel φ ω) where
  step := ProcessReaper.step

/-- The steps that the calls and the reapers take by themselves. -/
def ReaperLabel.internal : ReaperLabel φ ω → Bool
  | .ensures _ _ | .clones _ | .sends _ | .receives _ | .completes _ _ | .joinsNext _ _ => true
  | .ensure _ | .deferThread _ | .deferFuture _ | .deferTask _ | .ends _ | .breaks _ => false

/-! ## What a step can do -/

namespace ProcessReaper

variable {s s' : ProcessReaper φ ω}

/-- `ensure_process_reaper` finds an open reaper, starts one, or cannot. -/
theorem ensureProcessReaper_cases (s : ProcessReaper φ ω) (starts : Bool) :
    (s.sender.any s.isOpen = true ∧ s.ensureProcessReaper starts = (true, s)) ∨
    (s.sender.any s.isOpen = false ∧ s.ensureProcessReaper starts =
      (true, { s with reapers := s.reapers ++ [{}], sender := some s.reapers.length })) ∨
    (s.sender.any s.isOpen = false ∧ s.ensureProcessReaper starts = (false, s)) := by
  unfold ensureProcessReaper
  by_cases hopen : s.sender.any s.isOpen = true
  · exact .inl ⟨hopen, if_pos hopen⟩
  · rw [if_neg hopen]
    rw [Bool.not_eq_true] at hopen
    cases starts with
    | true => exact .inr (.inl ⟨hopen, rfl⟩)
    | false => exact .inr (.inr ⟨hopen, rfl⟩)

/-- What one step can do; `internal` tells the steps of calls and reapers from the others. -/
inductive Steps [DecidableEq φ] [DecidableEq ω] (s : ProcessReaper φ ω) :
    Bool → ProcessReaper φ ω → Prop where
  | ensure (starts : Bool) : Steps s false (s.ensureProcessReaper starts).2
  | begins (job : ReapJob φ ω) (attempts : Nat) : Steps s false (s.begin job attempts)
  | ends (job : ReapJob φ ω) : Steps s false { s with ended := s.ended ++ [job] }
  | ready {call : Nat} {state : DeferCall φ ω} (hcall : s.calls[call]? = some state)
      (hstage : state.stage = .ensure) {starts : Bool} {t : ProcessReaper φ ω}
      (hready : s.ensureProcessReaper starts = (true, t)) :
      Steps s true (t.setCall call { state with stage := .clone })
  | unready {call : Nat} {state : DeferCall φ ω} (hcall : s.calls[call]? = some state)
      (hstage : state.stage = .ensure) {starts : Bool} {t : ProcessReaper φ ω}
      (hready : s.ensureProcessReaper starts = (false, t)) : Steps s true (t.giveUp call state)
  | clones {call : Nat} {state : DeferCall φ ω} (hcall : s.calls[call]? = some state)
      (hstage : state.stage = .clone) {reaper : Nat} (hsender : s.sender = some reaper) :
      Steps s true (s.setCall call { state with stage := .send reaper })
  | panics {call : Nat} {state : DeferCall φ ω} (hcall : s.calls[call]? = some state)
      (hstage : state.stage = .clone) (hsender : s.sender = none) :
      Steps s true (s.setCall call { state with stage := .panicked })
  | sends {call : Nat} {state : DeferCall φ ω} (hcall : s.calls[call]? = some state)
      {reaper : Nat} (hstage : state.stage = .send reaper) {thread : ReaperThread φ ω}
      (hthread : s.reapers[reaper]? = some thread) (halive : thread.alive = true) :
      Steps s true
        { s.setReaper reaper { thread with queue := thread.queue ++ [state.job] } with
          calls := s.calls.eraseIdx call }
  | sendFails {call : Nat} {state : DeferCall φ ω} (hcall : s.calls[call]? = some state)
      {reaper : Nat} (hstage : state.stage = .send reaper) (hclosed : s.isOpen reaper = false) :
      Steps s true (s.giveUp call state)
  | receives {reaper : Nat} {thread : ReaperThread φ ω}
      (hthread : s.reapers[reaper]? = some thread) (halive : thread.alive = true)
      {job : ReapJob φ ω} {queue : List (ReapJob φ ω)} (hqueue : thread.queue = job :: queue) :
      Steps s true
        (s.setReaper reaper { thread with queue := queue, running := thread.running ++ [job] })
  | completes {reaper : Nat} {thread : ReaperThread φ ω}
      (hthread : s.reapers[reaper]? = some thread) (halive : thread.alive = true)
      {job : ReapJob φ ω} (hrunning : job ∈ thread.running) (hended : job ∈ s.ended) :
      Steps s true
        (s.setReaper reaper
          { thread with
            running := thread.running.erase job
            complete := thread.complete ++ [job] })
  | joinsNext {reaper : Nat} {thread : ReaperThread φ ω}
      (hthread : s.reapers[reaper]? = some thread) (halive : thread.alive = true)
      {job : ReapJob φ ω} (hcomplete : job ∈ thread.complete) :
      Steps s true
        { s.setReaper reaper { thread with complete := thread.complete.erase job } with
          reaped := s.reaped ++ [job] }
  | breaks {reaper : Nat} {thread : ReaperThread φ ω}
      (hthread : s.reapers[reaper]? = some thread) (halive : thread.alive = true)
      (hsender : s.sender ≠ some reaper) :
      Steps s false (s.setReaper reaper { thread with alive := false })

variable [DecidableEq φ] [DecidableEq ω]

/-- `Steps` has every step of the machine. -/
theorem steps_of_step {label : ReaperLabel φ ω} (h : s.step label = some s') :
    Steps s label.internal s' := by
  cases label with
  | ensure starts =>
      obtain rfl := Option.some.inj h
      exact .ensure starts
  | deferThread worker =>
      obtain rfl := Option.some.inj h
      exact .begins _ _
  | deferFuture future =>
      obtain rfl := Option.some.inj h
      exact .begins _ _
  | deferTask future =>
      obtain rfl := Option.some.inj h
      exact .begins _ _
  | ensures call starts =>
      -- an attempt of a call: it is ready, or it gives up
      simp only [step] at h
      split at h
      · rename_i state hcall
        split_ifs at h with hstage
        split at h
        · rename_i t hready
          obtain rfl := Option.some.inj h
          exact .ready hcall hstage hready
        · rename_i t hready
          obtain rfl := Option.some.inj h
          exact .unready hcall hstage hready
      · cases h
  | clones call =>
      simp only [step] at h
      split at h
      · rename_i state hcall
        split_ifs at h with hstage
        split at h
        · rename_i reaper hsender
          obtain rfl := Option.some.inj h
          exact .clones hcall hstage hsender
        · rename_i hsender
          obtain rfl := Option.some.inj h
          exact .panics hcall hstage hsender
      · cases h
  | sends call =>
      simp only [step] at h
      split at h
      · rename_i state hcall
        split at h
        · rename_i reaper hstage
          split at h
          · rename_i thread hthread
            split_ifs at h with halive
            · obtain rfl := Option.some.inj h
              exact .sends hcall hstage hthread halive
            · obtain rfl := Option.some.inj h
              exact .sendFails hcall hstage (by simpa [isOpen, hthread] using halive)
          · rename_i hthread
            obtain rfl := Option.some.inj h
            exact .sendFails hcall hstage (by simp [isOpen, hthread])
        · cases h
      · cases h
  | ends job =>
      obtain rfl := Option.some.inj h
      exact .ends job
  | receives reaper =>
      simp only [step] at h
      split at h
      · rename_i thread hthread
        split at h
        · rename_i job queue hqueue
          split_ifs at h with halive
          obtain rfl := Option.some.inj h
          exact .receives hthread halive hqueue
        · cases h
      · cases h
  | completes reaper job =>
      simp only [step] at h
      split at h
      · rename_i thread hthread
        split_ifs at h with hguard
        obtain rfl := Option.some.inj h
        exact .completes hthread hguard.1 hguard.2.1 hguard.2.2
      · cases h
  | joinsNext reaper job =>
      simp only [step] at h
      split at h
      · rename_i thread hthread
        split_ifs at h with hguard
        obtain rfl := Option.some.inj h
        exact .joinsNext hthread hguard.1 hguard.2
      · cases h
  | breaks reaper =>
      -- the loop of a reaper can only end when all senders are gone
      simp only [step] at h
      split at h
      · rename_i thread hthread
        split_ifs at h with hguard
        obtain rfl := Option.some.inj h
        exact .breaks hthread hguard.1 hguard.2.2.2.2.1
      · cases h

end ProcessReaper

/-! ## Where the jobs are -/

/-- The jobs that a reaper has received and not reaped. -/
def ReaperThread.jobs (thread : ReaperThread φ ω) : List (ReapJob φ ω) :=
  thread.queue ++ thread.running ++ thread.complete

namespace ProcessReaper

variable {s s' : ProcessReaper φ ω}

/-- All the places where a job can be: with its call, with a reaper, reaped, retained or dropped. -/
def places (s : ProcessReaper φ ω) : List (ReapJob φ ω) :=
  s.calls.map DeferCall.job ++ s.reapers.flatMap ReaperThread.jobs ++ s.reaped ++
    s.retained.map .thread ++ s.dropped.map .async

/-- A call that goes on keeps its job. -/
theorem places_setCall {call : Nat} {state : DeferCall φ ω}
    (hcall : s.calls[call]? = some state) (attempts : Nat) (stage : DeferStage) :
    (s.setCall call { state with attempts := attempts, stage := stage }).places = s.places := by
  have hmap : (s.calls.set call { state with attempts := attempts, stage := stage }).map
      DeferCall.job = s.calls.map DeferCall.job :=
    List.map_set_of_eq DeferCall.job hcall rfl
  unfold places setCall
  rw [hmap]

/-- A call that ends leaves its job behind. -/
theorem jobs_eraseIdx {call : Nat} {state : DeferCall φ ω} (hcall : s.calls[call]? = some state) :
    (s.calls.map DeferCall.job).Perm
      (state.job :: (s.calls.eraseIdx call).map DeferCall.job) := by
  have herase := (List.perm_cons_eraseIdx hcall).map DeferCall.job
  rwa [List.map_cons] at herase

theorem places_ensure (s : ProcessReaper φ ω) (starts : Bool) :
    (s.ensureProcessReaper starts).2.places = s.places := by
  rcases ensureProcessReaper_cases s starts with ⟨_, h⟩ | ⟨_, h⟩ | ⟨_, h⟩
  · rw [h]
  · rw [h]
    simp [places, ReaperThread.jobs]
  · rw [h]

theorem calls_ensure (s : ProcessReaper φ ω) (starts : Bool) :
    (s.ensureProcessReaper starts).2.calls = s.calls := by
  rcases ensureProcessReaper_cases s starts with ⟨_, h⟩ | ⟨_, h⟩ | ⟨_, h⟩
  all_goals rw [h]

theorem handed_ensure (s : ProcessReaper φ ω) (starts : Bool) :
    (s.ensureProcessReaper starts).2.handed = s.handed := by
  rcases ensureProcessReaper_cases s starts with ⟨_, h⟩ | ⟨_, h⟩ | ⟨_, h⟩
  all_goals rw [h]

/-- A call that gives up hands no job over. -/
theorem handed_giveUp (s : ProcessReaper φ ω) (call : Nat) (state : DeferCall φ ω) :
    (s.giveUp call state).handed = s.handed := by
  unfold giveUp
  split
  · rfl
  · split
    · rfl
    · rfl

variable [DecidableEq φ] [DecidableEq ω]

/-- A call that gives up keeps its job for the next attempt, or gives it its last place. -/
theorem places_giveUp {call : Nat} {state : DeferCall φ ω}
    (hcall : s.calls[call]? = some state) : (s.giveUp call state).places.Perm s.places := by
  unfold giveUp
  split
  · rw [places_setCall hcall]
  · have herase := List.perm_iff_count.mp (jobs_eraseIdx hcall)
    -- a thread is retained, a future dropped
    split
    · rename_i worker hjob
      rw [List.perm_iff_count]
      intro job
      have hcount := herase job
      rw [hjob] at hcount
      simp only [places, List.map_append, List.count_append, List.count_cons, List.map_cons,
        List.map_nil, List.count_nil] at hcount ⊢
      omega
    · rename_i future hjob
      rw [List.perm_iff_count]
      intro job
      have hcount := herase job
      rw [hjob] at hcount
      simp only [places, List.map_append, List.count_append, List.count_cons, List.map_cons,
        List.map_nil, List.count_nil] at hcount ⊢
      omega

/-- A reaper that changes keeps the others as they are. -/
theorem count_setReaper {reaper : Nat} {thread : ReaperThread φ ω}
    (hthread : s.reapers[reaper]? = some thread) (thread' : ReaperThread φ ω)
    (job : ReapJob φ ω) :
    thread.jobs.count job + ((s.reapers.set reaper thread').flatMap ReaperThread.jobs).count job =
      thread'.jobs.count job + (s.reapers.flatMap ReaperThread.jobs).count job := by
  have hperm := List.flatMap_set_perm ReaperThread.jobs hthread thread'
  have hcount := List.perm_iff_count.mp hperm job
  rwa [List.count_append, List.count_append] at hcount

/-- No step moves a job to two places or to none. -/
theorem custody_step {internal : Bool} (h : Steps s internal s')
    (hcustody : s.handed.Perm s.places) : s'.handed.Perm s'.places := by
  cases h with
  | ensure starts => rwa [handed_ensure, places_ensure]
  | begins job attempts =>
      -- a new job is with its call
      have hcount := List.perm_iff_count.mp hcustody
      rw [List.perm_iff_count]
      intro other
      have hother := hcount other
      simp only [places, begin, List.map_append, List.count_append, List.map_cons,
        List.map_nil] at hother ⊢
      omega
  | ends job => exact hcustody
  | ready hcall hstage hready =>
      rename_i call state starts t
      obtain rfl : t = (s.ensureProcessReaper starts).2 := by rw [hready]
      rw [← calls_ensure s starts] at hcall
      rw [places_setCall hcall, places_ensure]
      show (s.ensureProcessReaper starts).2.handed.Perm s.places
      rwa [handed_ensure]
  | unready hcall hstage hready =>
      rename_i call state starts t
      obtain rfl : t = (s.ensureProcessReaper starts).2 := by rw [hready]
      rw [← calls_ensure s starts] at hcall
      refine List.Perm.trans ?_ (places_giveUp hcall).symm
      rwa [handed_giveUp, handed_ensure, places_ensure]
  | clones hcall hstage hsender => rwa [places_setCall hcall]
  | panics hcall hstage hsender => rwa [places_setCall hcall]
  | sends hcall hstage hthread halive =>
      -- the job goes from the call to the queue
      rename_i call state reaper thread
      have herase := List.perm_iff_count.mp (jobs_eraseIdx hcall)
      rw [List.perm_iff_count] at hcustody ⊢
      intro job
      have hbefore := hcustody job
      have hcall := herase job
      have hthread := count_setReaper hthread
        { thread with queue := thread.queue ++ [state.job] } job
      simp only [places, setReaper, ReaperThread.jobs, List.count_append, List.count_cons,
        List.count_nil] at hbefore hcall hthread ⊢
      omega
  | sendFails hcall hstage hclosed =>
      refine List.Perm.trans ?_ (places_giveUp hcall).symm
      rwa [handed_giveUp]
  | receives hthread halive hqueue =>
      -- from the queue to the running jobs
      rename_i reaper thread job queue
      rw [List.perm_iff_count] at hcustody ⊢
      intro other
      have hbefore := hcustody other
      have hthread := count_setReaper hthread
        { thread with queue := queue, running := thread.running ++ [job] } other
      simp only [places, setReaper, ReaperThread.jobs, hqueue, List.count_append, List.count_cons,
        List.count_nil] at hbefore hthread ⊢
      omega
  | completes hthread halive hrunning hended =>
      -- from the running ones to the complete ones
      rename_i reaper thread job
      have hrunning := (List.perm_cons_erase hrunning).count_eq
      rw [List.perm_iff_count] at hcustody ⊢
      intro other
      have hbefore := hcustody other
      have hjob := hrunning other
      have hthread := count_setReaper hthread
        { thread with
          running := thread.running.erase job
          complete := thread.complete ++ [job] } other
      simp only [places, setReaper, ReaperThread.jobs, List.count_append, List.count_cons,
        List.count_nil] at hbefore hjob hthread ⊢
      omega
  | joinsNext hthread halive hcomplete =>
      -- and from there to the reaped ones
      rename_i reaper thread job
      have hcomplete := (List.perm_cons_erase hcomplete).count_eq
      rw [List.perm_iff_count] at hcustody ⊢
      intro other
      have hbefore := hcustody other
      have hjob := hcomplete other
      have hthread := count_setReaper hthread
        { thread with complete := thread.complete.erase job } other
      simp only [places, setReaper, ReaperThread.jobs, List.count_append, List.count_cons,
        List.count_nil] at hbefore hjob hthread ⊢
      omega
  | breaks hthread halive hsender =>
      -- a reaper whose loop ends has no job
      rename_i reaper thread
      rw [List.perm_iff_count] at hcustody ⊢
      intro other
      have hbefore := hcustody other
      have hthread := count_setReaper hthread { thread with alive := false } other
      simp only [places, setReaper, ReaperThread.jobs, List.count_append] at hbefore hthread ⊢
      omega

/-! ## There is one reaper -/

/-- What a call at a stage rests on. -/
def StageFits (s : ProcessReaper φ ω) : DeferStage → Prop
  | .ensure => True
  | .clone => s.sender = some 0
  | .send reaper => reaper = 0 ∧ s.sender = some 0
  | .panicked => False

/-- No reaper was started yet, or one was, which is alive and whose sender is kept. -/
inductive OneReaper (s : ProcessReaper φ ω) : Prop where
  | never (hsender : s.sender = none) (hreapers : s.reapers = [])
  | once (thread : ReaperThread φ ω) (hsender : s.sender = some 0) (hreapers : s.reapers = [thread])
      (halive : thread.alive = true)

structure Inv (s : ProcessReaper φ ω) : Prop where
  custody : s.handed.Perm s.places
  one : OneReaper s
  stages : ∀ call ∈ s.calls, StageFits s call.stage
  ended : ∀ thread ∈ s.reapers, ∀ job ∈ thread.complete, job ∈ s.ended
  reaped : ∀ job ∈ s.reaped, job ∈ s.ended

omit [DecidableEq φ] [DecidableEq ω] in
/-- The one reaper is alive, and the sender leads to it. -/
theorem OneReaper.sender_of_mem (h : OneReaper s) {reaper : Nat} {thread : ReaperThread φ ω}
    (hthread : s.reapers[reaper]? = some thread) :
    reaper = 0 ∧ s.reapers = [thread] ∧ s.sender = some 0 ∧ thread.alive = true := by
  cases h with
  | never hsender hreapers => simp [hreapers] at hthread
  | once thread' hsender hreapers halive =>
      rw [hreapers] at hthread
      cases reaper with
      | zero =>
          obtain rfl : thread' = thread := by simpa using hthread
          exact ⟨rfl, hreapers, hsender, halive⟩
      | succ reaper => simp at hthread

omit [DecidableEq φ] [DecidableEq ω] in
/-- A reaper that goes on is still the only one. -/
theorem OneReaper.set (h : OneReaper s) {reaper : Nat} {thread thread' : ReaperThread φ ω}
    (hthread : s.reapers[reaper]? = some thread) (halive : thread'.alive = true)
    {t : ProcessReaper φ ω} (hreapers : t.reapers = s.reapers.set reaper thread')
    (hsender : t.sender = s.sender) : OneReaper t := by
  rcases h.sender_of_mem hthread with ⟨rfl, hone, hzero, -⟩
  refine .once thread' (hsender.trans hzero) ?_ halive
  rw [hreapers, hone]
  rfl

omit [DecidableEq φ] [DecidableEq ω] in
/-- As long as there is a sender, the channel behind it is open. -/
theorem OneReaper.isOpen_iff (h : OneReaper s) : s.sender.any s.isOpen = s.sender.isSome := by
  cases h with
  | never hsender hreapers => simp [hsender]
  | once thread hsender hreapers halive => simp [hsender, hreapers, isOpen, halive]

omit [DecidableEq φ] [DecidableEq ω] in
/-- A reaper is started only when there is none. -/
theorem OneReaper.ensure (h : OneReaper s) (starts : Bool) :
    OneReaper (s.ensureProcessReaper starts).2 := by
  rcases ensureProcessReaper_cases s starts with ⟨_, hcase⟩ | ⟨hclosed, hcase⟩ | ⟨_, hcase⟩
  · rwa [hcase]
  · rw [hcase]
    rw [h.isOpen_iff] at hclosed
    cases h with
    | never hsender hreapers => exact .once {} (by simp [hreapers]) (by simp [hreapers]) rfl
    | once thread hsender hreapers halive => simp [hsender] at hclosed
  · rwa [hcase]

omit [DecidableEq φ] [DecidableEq ω] in
/-- Behind a success there is a sender. -/
theorem sender_ensure (h : OneReaper s) {starts : Bool} {t : ProcessReaper φ ω}
    (hready : s.ensureProcessReaper starts = (true, t)) : t.sender = some 0 := by
  rcases ensureProcessReaper_cases s starts with ⟨hopen, hcase⟩ | ⟨hclosed, hcase⟩ | ⟨_, hcase⟩
  · obtain rfl : s = t := congrArg Prod.snd (hcase.symm.trans hready)
    rw [h.isOpen_iff] at hopen
    cases h with
    | never hsender hreapers => simp [hsender] at hopen
    | once thread hsender hreapers halive => exact hsender
  · have ht := congrArg Prod.snd (hcase.symm.trans hready)
    simp only at ht
    rw [h.isOpen_iff] at hclosed
    subst ht
    cases h with
    | never hsender hreapers => simp [hreapers]
    | once thread hsender hreapers halive => simp [hsender] at hclosed
  · rw [hcase] at hready
    cases hready

omit [DecidableEq φ] [DecidableEq ω] in
/-- A stage fits as long as the sender is there. -/
theorem StageFits.of_sender {t : ProcessReaper φ ω} {stage : DeferStage}
    (hsender : s.sender = some 0 → t.sender = some 0) (h : StageFits s stage) :
    StageFits t stage := by
  cases stage with
  | ensure => trivial
  | clone => exact hsender h
  | send reaper => exact ⟨h.1, hsender h.2⟩
  | panicked => exact h

omit [DecidableEq φ] [DecidableEq ω] in
/-- A call that gives up changes no more than its own entry and the two lists of leftovers. -/
theorem giveUp_frame (s : ProcessReaper φ ω) (call : Nat) (state : DeferCall φ ω) :
    (s.giveUp call state).sender = s.sender ∧ (s.giveUp call state).reapers = s.reapers ∧
      (s.giveUp call state).ended = s.ended ∧ (s.giveUp call state).reaped = s.reaped ∧
      ∀ other ∈ (s.giveUp call state).calls, other ∈ s.calls ∨ other.stage = .ensure := by
  unfold giveUp
  split
  · refine ⟨rfl, rfl, rfl, rfl, ?_⟩
    intro other hother
    rcases List.mem_or_eq_of_mem_set hother with hother | rfl
    · exact .inl hother
    · exact .inr rfl
  · split
    · exact ⟨rfl, rfl, rfl, rfl, fun other hother => .inl (List.mem_of_mem_eraseIdx hother)⟩
    · exact ⟨rfl, rfl, rfl, rfl, fun other hother => .inl (List.mem_of_mem_eraseIdx hother)⟩

omit [DecidableEq φ] [DecidableEq ω] in
/-- A step that changes neither the reapers nor what has ended or was reaped, and leaves the calls
at stages that fit. -/
theorem Inv.of_frame {t : ProcessReaper φ ω} (h : Inv s) (hcustody : t.handed.Perm t.places)
    (hsender : t.sender = s.sender) (hreapers : t.reapers = s.reapers)
    (hended : ∀ job ∈ s.ended, job ∈ t.ended) (hreaped : t.reaped = s.reaped)
    (hcalls : ∀ call ∈ t.calls, call ∈ s.calls ∨ StageFits t call.stage) : Inv t := by
  refine ⟨hcustody, ?_, ?_, ?_, ?_⟩
  · cases h.one with
    | never hnone hnil => exact .never (hsender.trans hnone) (hreapers.trans hnil)
    | once thread hzero hone halive =>
        exact .once thread (hsender.trans hzero) (hreapers.trans hone) halive
  · intro call hcall
    rcases hcalls call hcall with hcall | hfits
    · exact (h.stages call hcall).of_sender (fun hzero => hsender.trans hzero)
    · exact hfits
  · intro thread hthread job hjob
    rw [hreapers] at hthread
    exact hended job (h.ended thread hthread job hjob)
  · intro job hjob
    rw [hreaped] at hjob
    exact hended job (h.reaped job hjob)

omit [DecidableEq φ] [DecidableEq ω] in
/-- A step of a reaper. -/
theorem Inv.of_reaper {t : ProcessReaper φ ω} (h : Inv s) (hcustody : t.handed.Perm t.places)
    {reaper : Nat} {thread thread' : ReaperThread φ ω}
    (hthread : s.reapers[reaper]? = some thread) (hsender : t.sender = s.sender)
    (hreapers : t.reapers = s.reapers.set reaper thread') (halive : thread'.alive = true)
    (hended : t.ended = s.ended) (hcomplete : ∀ job ∈ thread'.complete, job ∈ s.ended)
    (hreaped : ∀ job ∈ t.reaped, job ∈ s.ended)
    (hcalls : ∀ call ∈ t.calls, call ∈ s.calls) : Inv t := by
  refine ⟨hcustody, h.one.set hthread halive hreapers hsender, ?_, ?_, ?_⟩
  · intro call hcall
    exact (h.stages call (hcalls call hcall)).of_sender (fun hzero => hsender.trans hzero)
  · intro other hother job hjob
    rw [hreapers] at hother
    rw [hended]
    rcases List.mem_or_eq_of_mem_set hother with hother | rfl
    · exact h.ended other hother job hjob
    · exact hcomplete job hjob
  · rwa [hended]

omit [DecidableEq φ] [DecidableEq ω] in
/-- `ensure_process_reaper` keeps the invariant, whoever calls it. -/
theorem Inv.ensure (h : Inv s) (starts : Bool) : Inv (s.ensureProcessReaper starts).2 := by
  have hone := h.one.ensure starts
  have hcustody : (s.ensureProcessReaper starts).2.handed.Perm
      (s.ensureProcessReaper starts).2.places := by
    rw [handed_ensure, places_ensure]
    exact h.custody
  rcases ensureProcessReaper_cases s starts with ⟨_, hcase⟩ | ⟨hclosed, hcase⟩ | ⟨_, hcase⟩
  · rwa [hcase]
  · rw [hcase] at hone hcustody ⊢
    refine ⟨hcustody, hone, ?_, ?_, h.reaped⟩
    · intro call hcall
      refine (h.stages call hcall).of_sender ?_
      intro hzero
      rw [h.one.isOpen_iff, hzero] at hclosed
      cases hclosed
    · -- the new reaper has nothing yet
      intro thread hthread
      rcases List.mem_append.mp hthread with hthread | hthread
      · exact h.ended thread hthread
      · obtain rfl := List.mem_singleton.mp hthread
        intro job hjob
        cases hjob
  · rwa [hcase]

omit [DecidableEq φ] [DecidableEq ω] in
/-- A call that gives up keeps the invariant if its job has a place. -/
theorem Inv.giveUp (h : Inv s) {call : Nat} {state : DeferCall φ ω}
    (hcustody : (s.giveUp call state).handed.Perm (s.giveUp call state).places) :
    Inv (s.giveUp call state) := by
  rcases giveUp_frame s call state with ⟨hsender, hreapers, hended, hreaped, hcalls⟩
  refine h.of_frame hcustody hsender hreapers ?_ hreaped ?_
  · intro job hjob
    rwa [hended]
  · intro other hother
    rcases hcalls other hother with hother | hstage
    · exact .inl hother
    · right
      rw [hstage]
      trivial

/-- Every step keeps the invariant. -/
theorem step_inv {internal : Bool} (h : Steps s internal s') (hinv : Inv s) : Inv s' := by
  have hcustody := custody_step h hinv.custody
  cases h with
  | ensure starts => exact hinv.ensure starts
  | begins job attempts =>
      refine hinv.of_frame hcustody rfl rfl (fun _ => id) rfl ?_
      intro call hcall
      rcases List.mem_append.mp hcall with hcall | hcall
      · exact .inl hcall
      · obtain rfl := List.mem_singleton.mp hcall
        exact .inr trivial
  | ends job =>
      refine hinv.of_frame hcustody rfl rfl ?_ rfl (fun _ => .inl)
      intro other hother
      exact List.mem_append_left _ hother
  | ready hcall hstage hready =>
      rename_i call state starts t
      have hsender := sender_ensure hinv.one hready
      obtain rfl : t = (s.ensureProcessReaper starts).2 := by rw [hready]
      refine (hinv.ensure starts).of_frame hcustody rfl rfl (fun _ => id) rfl ?_
      intro other hother
      rcases List.mem_or_eq_of_mem_set hother with hother | rfl
      · exact .inl hother
      · exact .inr hsender
  | unready hcall hstage hready =>
      rename_i call state starts t
      obtain rfl : t = (s.ensureProcessReaper starts).2 := by rw [hready]
      exact (hinv.ensure starts).giveUp hcustody
  | clones hcall hstage hsender =>
      rename_i call state reaper
      have hzero : s.sender = some 0 := by
        have hfits := hinv.stages state (List.mem_of_getElem? hcall)
        rwa [hstage] at hfits
      refine hinv.of_frame hcustody rfl rfl (fun _ => id) rfl ?_
      intro other hother
      rcases List.mem_or_eq_of_mem_set hother with hother | rfl
      · exact .inl hother
      · exact .inr ⟨Option.some.inj (hsender.symm.trans hzero), hzero⟩
  | panics hcall hstage hsender =>
      rename_i call state
      have hfits := hinv.stages state (List.mem_of_getElem? hcall)
      rw [hstage] at hfits
      rw [StageFits, hsender] at hfits
      cases hfits
  | sends hcall hstage hthread halive =>
      have hended := hinv.ended _ (List.mem_of_getElem? hthread)
      exact hinv.of_reaper hcustody hthread rfl rfl halive rfl hended hinv.reaped
        (fun _ => List.mem_of_mem_eraseIdx)
  | sendFails hcall hstage hclosed => exact hinv.giveUp hcustody
  | receives hthread halive hqueue =>
      have hended := hinv.ended _ (List.mem_of_getElem? hthread)
      exact hinv.of_reaper hcustody hthread rfl rfl halive rfl hended hinv.reaped (fun _ => id)
  | completes hthread halive hrunning hended =>
      refine hinv.of_reaper hcustody hthread rfl rfl halive rfl ?_ hinv.reaped (fun _ => id)
      intro other hother
      rcases List.mem_append.mp hother with hother | hother
      · exact hinv.ended _ (List.mem_of_getElem? hthread) other hother
      · obtain rfl := List.mem_singleton.mp hother
        exact hended
  | joinsNext hthread halive hcomplete =>
      have hended := hinv.ended _ (List.mem_of_getElem? hthread)
      refine hinv.of_reaper hcustody hthread rfl rfl halive rfl ?_ ?_ (fun _ => id)
      · intro other hother
        exact hended other (List.mem_of_mem_erase hother)
      · intro other hother
        rcases List.mem_append.mp hother with hother | hother
        · exact hinv.reaped other hother
        · obtain rfl := List.mem_singleton.mp hother
          exact hended _ hcomplete
  | breaks hthread halive hsender =>
      -- the sender of the only reaper is never given away
      rcases hinv.one.sender_of_mem hthread with ⟨rfl, -, hzero, -⟩
      exact absurd hzero hsender

omit [DecidableEq φ] [DecidableEq ω] in
theorem start_inv : Inv ({} : ProcessReaper φ ω) := by
  refine ⟨List.Perm.refl _, .never rfl rfl, ?_, ?_, ?_⟩
  · intro call hcall
    cases hcall
  · intro thread hthread
    cases hthread
  · intro job hjob
    cases hjob

theorem run_inv {trace : List (ReaperLabel φ ω)} (h : Inv s)
    (hrun : (processReaper φ ω).run s trace = some s') : Inv s' := by
  refine Machine.run_invariant ?_ hrun h
  intro before label after hstep hbefore
  exact step_inv (steps_of_step hstep) hbefore

/-- Once there is a reaper every attempt succeeds, so nothing is left over. -/
theorem leftovers_step {internal : Bool} (h : Steps s internal s') (hinv : Inv s)
    (hsome : s.sender.isSome = true) :
    s'.sender.isSome = true ∧ s'.retained = s.retained ∧ s'.dropped = s.dropped := by
  -- the reaper is open, so no call fails
  have hopen : s.sender.any s.isOpen = true := by rw [hinv.one.isOpen_iff, hsome]
  cases h with
  | ensure starts =>
      rw [ensureProcessReaper, if_pos hopen]
      exact ⟨hsome, rfl, rfl⟩
  | ready hcall hstage hready =>
      rw [ensureProcessReaper, if_pos hopen] at hready
      obtain rfl := congrArg Prod.snd hready
      exact ⟨hsome, rfl, rfl⟩
  | unready hcall hstage hready =>
      rw [ensureProcessReaper, if_pos hopen] at hready
      cases hready
  | sendFails hcall hstage hclosed =>
      have hfits := hinv.stages _ (List.mem_of_getElem? hcall)
      rw [hstage] at hfits
      rcases hfits with ⟨rfl, hzero⟩
      rw [hzero] at hopen
      rw [Option.any_some] at hopen
      rw [hclosed] at hopen
      cases hopen
  | begins | ends | clones | panics | sends | receives | completes | joinsNext | breaks =>
      exact ⟨hsome, rfl, rfl⟩

/-- Once there is a reaper nothing more is retained or dropped, in any run. -/
theorem leftovers_run {trace : List (ReaperLabel φ ω)} (hinv : Inv s)
    (hsome : s.sender.isSome = true) (hrun : (processReaper φ ω).run s trace = some s') :
    s'.retained = s.retained ∧ s'.dropped = s.dropped := by
  have hkeep : ∀ before label after, (processReaper φ ω).step before label = some after →
      (Inv before ∧ before.sender.isSome = true ∧ before.retained = s.retained ∧
        before.dropped = s.dropped) →
      Inv after ∧ after.sender.isSome = true ∧ after.retained = s.retained ∧
        after.dropped = s.dropped := by
    intro before label after hstep hbefore
    have hsteps := steps_of_step hstep
    rcases leftovers_step hsteps hbefore.1 hbefore.2.1 with ⟨hsender, hretained, hdropped⟩
    exact ⟨step_inv hsteps hbefore.1, hsender, hretained.trans hbefore.2.2.1,
      hdropped.trans hbefore.2.2.2⟩
  exact (Machine.run_invariant hkeep hrun ⟨hinv, hsome, rfl, rfl⟩).2.2

/-- The loop of a reaper does not end: its channel has a sender as long as the process runs. -/
theorem Inv.breaks_none (h : Inv s) (reaper : Nat) : s.step (.breaks reaper) = none := by
  by_contra hsome
  rcases Option.ne_none_iff_exists'.mp hsome with ⟨s', hstep⟩
  simp only [step] at hstep
  split at hstep
  · rename_i thread hthread
    split_ifs at hstep with hguard
    rcases h.one.sender_of_mem hthread with ⟨rfl, -, hzero, -⟩
    exact hguard.2.2.2.2.1 hzero
  · cases hstep

omit [DecidableEq φ] [DecidableEq ω] in
theorem OneReaper.length_le (h : OneReaper s) : s.reapers.length ≤ 1 := by
  cases h with
  | never hsender hreapers => simp [hreapers]
  | once thread hsender hreapers halive => simp [hreapers]

omit [DecidableEq φ] [DecidableEq ω] in
theorem OneReaper.sender_isSome (h : OneReaper s) (hreapers : s.reapers ≠ []) :
    s.sender.isSome = true := by
  cases h with
  | never hsender hnil => exact absurd hnil hreapers
  | once thread hsender hone halive => simp [hsender]

end ProcessReaper

/-! ## Nothing but what has not ended is left -/

/-- The steps that a call has still to take, with those of the reaper for its job. -/
def DeferCall.work (call : DeferCall φ ω) : Nat :=
  match call.stage with
  | .ensure => 3 * call.attempts + 6
  | .clone => 3 * call.attempts + 5
  | .send _ => 3 * call.attempts + 4
  | .panicked => 0

def ReaperThread.work (thread : ReaperThread φ ω) : Nat :=
  3 * thread.queue.length + 2 * thread.running.length + thread.complete.length

namespace ProcessReaper

variable {s s' : ProcessReaper φ ω}

def work (s : ProcessReaper φ ω) : Nat :=
  (s.calls.map DeferCall.work).sum + (s.reapers.map ReaperThread.work).sum

theorem work_setCall {call : Nat} {state : DeferCall φ ω} (hcall : s.calls[call]? = some state)
    (state' : DeferCall φ ω) :
    state.work + (s.setCall call state').work = state'.work + s.work := by
  have hsum := List.sum_map_set DeferCall.work hcall state'
  unfold work setCall
  simp only
  omega

theorem work_setReaper {reaper : Nat} {thread : ReaperThread φ ω}
    (hthread : s.reapers[reaper]? = some thread) (thread' : ReaperThread φ ω) :
    thread.work + (s.setReaper reaper thread').work = thread'.work + s.work := by
  have hsum := List.sum_map_set ReaperThread.work hthread thread'
  unfold work setReaper
  simp only
  omega

theorem work_ensure (s : ProcessReaper φ ω) (starts : Bool) :
    (s.ensureProcessReaper starts).2.work = s.work := by
  rcases ensureProcessReaper_cases s starts with ⟨_, h⟩ | ⟨_, h⟩ | ⟨_, h⟩
  · rw [h]
  · rw [h]
    simp [work, ReaperThread.work]
  · rw [h]

/-- The next attempt has three steps fewer to take. -/
theorem work_giveUp {call : Nat} {state : DeferCall φ ω} (hcall : s.calls[call]? = some state)
    (hstage : 3 * state.attempts + 3 < state.work) : (s.giveUp call state).work < s.work := by
  unfold giveUp
  split
  · -- the next attempt has less to do
    let next : DeferCall φ ω := { state with attempts := state.attempts - 1, stage := .ensure }
    have hset := work_setCall hcall next
    have hnext : next.work = 3 * (state.attempts - 1) + 6 := rfl
    rw [hnext] at hset
    show (s.setCall call next).work < s.work
    omega
  · -- behind the last one the call is gone
    have herase := List.sum_map_eraseIdx DeferCall.work hcall
    split
    · unfold work
      simp only
      omega
    · unfold work
      simp only
      omega

variable [DecidableEq φ] [DecidableEq ω]

/-- A step of a call or of a reaper leaves one less to take. -/
theorem work_step (h : Steps s true s') : s'.work < s.work := by
  cases h with
  | ready hcall hstage hready =>
      rename_i call state starts t
      have hwork := work_ensure s starts
      have hcalls := calls_ensure s starts
      rw [hready] at hwork hcalls
      have hset := work_setCall (hcalls ▸ hcall) { state with stage := .clone }
      rw [DeferCall.work, DeferCall.work, hstage] at hset
      simp only at hset hwork
      omega
  | unready hcall hstage hready =>
      rename_i call state starts t
      have hwork := work_ensure s starts
      have hcalls := calls_ensure s starts
      rw [hready] at hwork hcalls
      simp only at hwork
      rw [← hwork]
      apply work_giveUp (hcalls ▸ hcall)
      rw [DeferCall.work, hstage]
      simp only
      omega
  | clones hcall hstage hsender =>
      rename_i call state reaper
      have hset := work_setCall hcall { state with stage := .send reaper }
      rw [DeferCall.work, DeferCall.work, hstage] at hset
      simp only at hset
      omega
  | panics hcall hstage hsender =>
      rename_i call state
      have hset := work_setCall hcall { state with stage := .panicked }
      rw [DeferCall.work, DeferCall.work, hstage] at hset
      simp only at hset
      omega
  | sends hcall hstage hthread halive =>
      -- the job is three steps away from being reaped
      rename_i call state reaper thread
      have hset := work_setReaper hthread { thread with queue := thread.queue ++ [state.job] }
      have herase := List.sum_map_eraseIdx DeferCall.work hcall
      rw [DeferCall.work, hstage] at herase
      simp only [work, setReaper, ReaperThread.work, List.length_append, List.length_singleton]
        at hset herase ⊢
      omega
  | sendFails hcall hstage hclosed =>
      apply work_giveUp hcall
      rw [DeferCall.work, hstage]
      simp only
      omega
  | receives hthread halive hqueue =>
      rename_i reaper thread job queue
      have hset := work_setReaper hthread
        { thread with queue := queue, running := thread.running ++ [job] }
      simp only [ReaperThread.work, hqueue, List.length_cons, List.length_append,
        List.length_nil] at hset
      omega
  | completes hthread halive hrunning hended =>
      rename_i reaper thread job
      have hset := work_setReaper hthread
        { thread with
          running := thread.running.erase job
          complete := thread.complete ++ [job] }
      have hlength := List.length_pos_of_mem hrunning
      simp only [ReaperThread.work, List.length_erase_of_mem hrunning, List.length_append,
        List.length_singleton] at hset
      omega
  | joinsNext hthread halive hcomplete =>
      rename_i reaper thread job
      have hset := work_setReaper hthread
        { thread with complete := thread.complete.erase job }
      have hlength := List.length_pos_of_mem hcomplete
      simp only [work, setReaper, ReaperThread.work, List.length_erase_of_mem hcomplete]
        at hset ⊢
      omega

/-- The steps of the calls and the reaper end no job, and hand none over. -/
theorem frame_step (h : Steps s true s') : s'.ended = s.ended ∧ s'.handed = s.handed := by
  cases h with
  | ready hcall hstage hready =>
      rename_i call state starts t
      rcases ensureProcessReaper_cases s starts with ⟨_, hcase⟩ | ⟨_, hcase⟩ | ⟨_, hcase⟩
      all_goals
        obtain rfl := congrArg Prod.snd (hcase.symm.trans hready)
        exact ⟨rfl, rfl⟩
  | unready hcall hstage hready =>
      rename_i call state starts t
      rw [(giveUp_frame t call state).2.2.1, handed_giveUp]
      rcases ensureProcessReaper_cases s starts with ⟨_, hcase⟩ | ⟨_, hcase⟩ | ⟨_, hcase⟩
      all_goals
        obtain rfl := congrArg Prod.snd (hcase.symm.trans hready)
        exact ⟨rfl, rfl⟩
  | sendFails hcall hstage hclosed =>
      rw [(giveUp_frame s _ _).2.2.1, handed_giveUp]
      exact ⟨rfl, rfl⟩
  | clones | panics | sends | receives | completes | joinsNext => exact ⟨rfl, rfl⟩

/-- Internal steps, however many, end no process and hand no job over. -/
theorem frame_run {trace : List (ReaperLabel φ ω)}
    (hown : ∀ label ∈ trace, label.internal = true)
    (hrun : (processReaper φ ω).run s trace = some s') :
    s'.ended = s.ended ∧ s'.handed = s.handed := by
  induction trace generalizing s with
  | nil =>
      obtain rfl := Option.some.inj hrun
      exact ⟨rfl, rfl⟩
  | cons label trace ih =>
      rcases Machine.run_cons.mp hrun with ⟨t, hstep, hrest⟩
      have hsteps := steps_of_step hstep
      rw [hown label List.mem_cons_self] at hsteps
      rcases frame_step hsteps with ⟨hended, hhanded⟩
      rcases ih (fun other hother => hown other (List.mem_cons_of_mem _ hother)) hrest with
        ⟨hended', hhanded'⟩
      exact ⟨hended'.trans hended, hhanded'.trans hhanded⟩

/-- Where no call and no reaper can take a step, all calls have returned, and the reapers have only
jobs that have not ended. -/
theorem Inv.of_quiet (h : Inv s)
    (hquiet : (processReaper φ ω).Quiet (fun label => label.internal = true) s) :
    s.calls = [] ∧ ∀ thread ∈ s.reapers, thread.queue = [] ∧ thread.complete = [] ∧
      ∀ job ∈ thread.running, job ∉ s.ended := by
  have hstuck : ∀ label : ReaperLabel φ ω, label.internal = true → s.step label = none := hquiet
  constructor
  · rw [List.eq_nil_iff_forall_not_mem]
    intro state hmem
    have hfits := h.stages state hmem
    rcases List.mem_iff_getElem?.mp hmem with ⟨call, hcall⟩
    -- each stage of a call has a step
    cases hstage : state.stage with
    | ensure =>
        have hnone := hstuck (.ensures call false) rfl
        simp only [step, hcall, hstage, if_true] at hnone
        split at hnone
        · cases hnone
        · cases hnone
    | clone =>
        rw [hstage] at hfits
        have hnone := hstuck (.clones call) rfl
        simp only [StageFits] at hfits
        simp only [step, hcall, hstage, if_true, hfits] at hnone
        cases hnone
    | send reaper =>
        have hnone := hstuck (.sends call) rfl
        simp only [step, hcall, hstage] at hnone
        split at hnone
        · split_ifs at hnone
        · cases hnone
    | panicked =>
        rw [hstage] at hfits
        exact hfits
  · intro thread hmem
    rcases List.mem_iff_getElem?.mp hmem with ⟨reaper, hthread⟩
    have halive := (h.one.sender_of_mem hthread).2.2.2
    refine ⟨?_, ?_, ?_⟩
    · -- the reaper takes what is in its queue
      have hnone := hstuck (.receives reaper) rfl
      simp only [step, hthread, halive, if_true] at hnone
      split at hnone
      · cases hnone
      · assumption
    · rw [List.eq_nil_iff_forall_not_mem]
      intro job hjob
      -- it joins what is complete
      have hnone := hstuck (.joinsNext reaper job) rfl
      simp only [step, hthread, halive, hjob, true_and, if_true] at hnone
      cases hnone
    · intro job hjob hended
      -- what has ended completes
      have hnone := hstuck (.completes reaper job) rfl
      simp only [step, hthread, halive, hjob, hended, true_and, if_true] at hnone
      cases hnone

end ProcessReaper

open ProcessReaper

variable [DecidableEq φ] [DecidableEq ω]

/-- In every run, each job is in one place, a job is reaped only when it has ended, no more than one
reaper is started, its loop does not end, and no call finds the sender missing. From the moment a
reaper was started, no thread is retained and no future is dropped any more. -/
theorem process_reaper_custody {trace : List (ReaperLabel φ ω)} {s : ProcessReaper φ ω}
    (hrun : (processReaper φ ω).run {} trace = some s) :
    s.handed.Perm s.places ∧ (∀ job ∈ s.reaped, job ∈ s.ended) ∧ s.reapers.length ≤ 1 ∧
    (∀ reaper, s.step (.breaks reaper) = none) ∧ (∀ call ∈ s.calls, call.stage ≠ .panicked) ∧
    ∀ more s', s.reapers ≠ [] → (processReaper φ ω).run s more = some s' →
      s'.retained = s.retained ∧ s'.dropped = s.dropped := by
  have hinv := run_inv start_inv hrun
  refine ⟨hinv.custody, hinv.reaped, hinv.one.length_le, hinv.breaks_none, ?_, ?_⟩
  · intro call hcall hpanicked
    have hfits := hinv.stages call hcall
    rw [hpanicked] at hfits
    exact hfits
  · intro more s' hreapers hmore
    exact leftovers_run hinv (hinv.one.sender_isSome hreapers) hmore

/-- A thread that is retained, since the reaper cannot be started, and then a future and another
thread, of which the future ends. -/
def lateReaper : List (ReaperLabel Nat Nat) :=
  [.deferThread 0, .ensures 0 false, .ensures 0 false, .deferFuture 1, .ensures 0 true, .clones 0,
    .deferThread 2, .sends 0, .receives 0, .ends (.async 1), .ensures 0 false, .clones 0, .sends 0]

/-- The first thread is retained, since no reaper can be started; what comes later goes to the
reaper. -/
theorem process_reaper_custody_lateReaper :
    ∃ s, (processReaper Nat Nat).run {} lateReaper = some s ∧ s.retained = [0] ∧
      s.handed = [.thread 0, .async 1, .thread 2] ∧ s.handed.Perm s.places ∧
      ∀ more s', (processReaper Nat Nat).run s more = some s' → s'.retained = [0] := by
  have hresult : ((processReaper Nat Nat).run {} lateReaper).map
      (fun s => (s.retained, s.handed, s.reapers)) =
        some ([0], [.thread 0, .async 1, .thread 2],
          [{ queue := [.thread 2], running := [.async 1] }]) := by
    decide
  rcases Option.map_eq_some_iff.mp hresult with ⟨s, hrun, hfields⟩
  have hretained : s.retained = [0] := congrArg Prod.fst hfields
  have hhanded := congrArg (fun fields => fields.2.1) hfields
  have hreapers := congrArg (fun fields => fields.2.2) hfields
  have hall := process_reaper_custody hrun
  refine ⟨s, hrun, hretained, hhanded, hall.1, ?_⟩
  intro more s' hmore
  have hkept := hall.2.2.2.2.2 more s' (by simp only at hreapers; simp [hreapers]) hmore
  rw [hkept.1, hretained]

/-- All that was handed over is reaped, or left over by a call without a reaper, but for jobs that
had not ended. -/
structure ReaperSettled (s s' : ProcessReaper φ ω) : Prop where
  calls : s'.calls = []
  jobs : ∃ unfinished : List (ReapJob φ ω), (∀ job ∈ unfinished, job ∉ s.ended) ∧
    s.handed.Perm
      (unfinished ++ s'.reaped ++ s'.retained.map .thread ++ s'.dropped.map .async)

omit [DecidableEq φ] [DecidableEq ω] in
/-- The jobs of reapers that have only running ones. -/
theorem flatMap_jobs {reapers : List (ReaperThread φ ω)}
    (h : ∀ thread ∈ reapers, thread.queue = [] ∧ thread.complete = []) :
    reapers.flatMap ReaperThread.jobs = reapers.flatMap ReaperThread.running := by
  apply List.flatMap_congr
  intro thread hthread
  rcases h thread hthread with ⟨hqueue, hcomplete⟩
  simp [ReaperThread.jobs, hqueue, hcomplete]

/-- From any state of any run, the calls and the reapers can take only so many steps by themselves,
and wherever they can take no more, all the calls have returned and everything that has ended was
reaped or left over. -/
theorem process_reaper_settles {trace : List (ReaperLabel φ ω)} {s : ProcessReaper φ ω}
    (hrun : (processReaper φ ω).run {} trace = some s) :
    (∃ more s', (∀ label ∈ more, label.internal = true) ∧
      (processReaper φ ω).run s more = some s' ∧ ReaperSettled s s') ∧
    ∀ more s', (∀ label ∈ more, label.internal = true) →
      (processReaper φ ω).run s more = some s' →
      more.length ≤ s.work ∧
      ((processReaper φ ω).Quiet (fun label => label.internal = true) s' → ReaperSettled s s') := by
  have hinv := run_inv start_inv hrun
  -- each step of the calls and the reaper lowers the work
  have hlower : ∀ (before : ProcessReaper φ ω) label after, label.internal = true →
      (processReaper φ ω).step before label = some after → after.work < before.work := by
    intro before label after hown hstep
    have hsteps := steps_of_step hstep
    rw [hown] at hsteps
    exact work_step hsteps
  -- where they have none left, only what has not ended is with the reaper
  have hsettles : ∀ more s', (∀ label ∈ more, label.internal = true) →
      (processReaper φ ω).run s more = some s' →
      (processReaper φ ω).Quiet (fun label => label.internal = true) s' → ReaperSettled s s' := by
    intro more s' hown hmore hquiet
    have hinv' := run_inv hinv hmore
    rcases frame_run hown hmore with ⟨hended, hhanded⟩
    rcases hinv'.of_quiet hquiet with ⟨hcalls, hreapers⟩
    refine ⟨hcalls, s'.reapers.flatMap ReaperThread.running, ?_, ?_⟩
    · intro job hjob
      rcases List.mem_flatMap.mp hjob with ⟨thread, hthread, hjob⟩
      rw [← hended]
      exact (hreapers thread hthread).2.2 job hjob
    · have hcustody := hinv'.custody
      rw [places, hcalls, flatMap_jobs fun thread hthread =>
        ⟨(hreapers thread hthread).1, (hreapers thread hthread).2.1⟩] at hcustody
      rw [← hhanded]
      exact hcustody
  constructor
  · have hkeep : ∀ (before : ProcessReaper φ ω) label after, label.internal = true →
        (processReaper φ ω).step before label = some after → Inv before → Inv after := by
      intro before label after _ hstep hbefore
      exact step_inv (steps_of_step hstep) hbefore
    rcases Machine.exists_quiet hlower hkeep hinv with ⟨more, s', hown, hmore, -, hquiet⟩
    exact ⟨more, s', hown, hmore, hsettles more s' hown hmore hquiet⟩
  · intro more s' hown hmore
    have hlength := Machine.length_le_rank hlower hown hmore
    exact ⟨by omega, hsettles more s' hown hmore⟩

/-- The run of the example can be settled. -/
theorem process_reaper_settles_lateReaper :
    ∃ s, (processReaper Nat Nat).run {} lateReaper = some s ∧
      ∃ more s', (∀ label ∈ more, label.internal = true) ∧
        (processReaper Nat Nat).run s more = some s' ∧ ReaperSettled s s' := by
  have hresult : ((processReaper Nat Nat).run {} lateReaper).isSome = true := by decide
  rcases Option.isSome_iff_exists.mp hresult with ⟨s, hrun⟩
  exact ⟨s, hrun, (process_reaper_settles hrun).1⟩

end Rssh
