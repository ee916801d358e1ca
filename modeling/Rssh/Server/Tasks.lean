import Mathlib.Data.List.Nodup
import Rssh.Lib.Machine
import Rssh.Process.Deadlines

/-!
# The child tasks of the server

A `ChildTaskTracker` owns the tasks that are spawned through it until its `shutdown` closes it,
waits for them, aborts those that are left and hands the rest to the process reaper. Any number of
trackers share the count of a probe.

The machine `childTasks` takes one label per atomic operation: the lock of a tracker is held from
the check of `closed` to the push, a task's body ends in a step before the join sees it, and the
shutdown stops at each task it waits for. The clock goes on at any time.

* `Shutdown.step_inv` is what one step of a shutdown keeps, and `step_inv` one step of anything.
* `tracker_shutdown` is the result for all runs.
-/

namespace Rssh

variable {τ : Type} {limit : Nat}

/-! ## Tasks -/

/-- A spawned task. Its guard is dropped when its body has ended; its join is ready some time after
that. -/
structure ChildTask (τ : Type) (limit : Nat) where
  tracker : τ
  bodyEnded : Bool := false
  finishedAt : Option (Instant limit) := none
deriving DecidableEq

/-- When the join of a task has become ready. -/
def finishedAt (tasks : List (ChildTask τ limit)) (task : Nat) : Option (Instant limit) :=
  tasks[task]?.bind ChildTask.finishedAt

/-- The numbers of the tasks that a tracker has accepted. -/
def acceptedTasks [DecidableEq τ] (tasks : List (ChildTask τ limit)) (tracker : τ) : List Nat :=
  (List.range tasks.length).filter fun task => tasks[task]?.any fun found => found.tracker = tracker

/-! ## The shutdown -/

/-- A join that was seen, when, and whether by the final drain. -/
structure Join (limit : Nat) where
  task : Nat
  at_ : Instant limit
  final : Bool
deriving DecidableEq, Repr

/-- Where `shutdown` is. A drain waits for the first of `todo`; the final one is up to the deadline.
All the tasks in these lists still have their join. -/
inductive ShutdownStage (limit : Nat) where
  | closed (tasks : List Nat)
  | draining (final : Bool) (upTo : Instant limit) (todo pending : List Nat)
  | aborting (todo pending : List Nat)
  | deferring (completed : Bool) (todo : List Nat)
  | returned (completed : Bool)
  /-- Its future was dropped at a wait. -/
  | dropped
deriving DecidableEq

/-- A call of `shutdown`, with what it has done. -/
structure Shutdown (limit : Nat) where
  deadline : ShutdownDeadline limit
  stage : ShutdownStage limit
  abortAt : Option (Instant limit) := none
  joined : List (Join limit) := []
  aborted : List Nat := []
  handed : List Nat := []
deriving DecidableEq

inductive ShutdownLabel (limit : Nat) where
  | readAbortAt (first : Instant limit)
  | joins
  | elapses
  | proceeds
  | drops
deriving DecidableEq

namespace Shutdown

/-- One step of `shutdown` and its two `drain_owned_tasks`. A `timeout_at` sees a join that is
ready, also when the time is over; it elapses only when the time is over, and not if the join has
been ready before. -/
def step (now : Instant limit) (tasks : List (ChildTask τ limit)) (sd : Shutdown limit) :
    ShutdownLabel limit → Option (Shutdown limit)
  | .readAbortAt first =>
      match sd.stage with
      | .closed owned =>
          if first ≤ now then
            let abortAt := sd.deadline.abortAt first now
            some { sd with abortAt := some abortAt, stage := .draining false abortAt owned [] }
          else none
      | _ => none
  | .joins =>
      match sd.stage with
      | .draining final upTo (task :: todo) pending =>
          if (finishedAt tasks task).isSome then
            some
              { sd with
                joined := sd.joined ++ [{ task, at_ := now, final }]
                stage := .draining final upTo todo pending }
          else none
      | _ => none
  | .elapses =>
      match sd.stage with
      | .draining final upTo (task :: todo) pending =>
          if upTo ≤ now ∧ (finishedAt tasks task).all (upTo ≤ ·) then
            some { sd with stage := .draining final upTo todo (pending ++ [task]) }
          else none
      | _ => none
  | .proceeds =>
      match sd.stage with
      | .draining false _ [] pending => some { sd with stage := .aborting pending pending }
      | .aborting (task :: todo) pending =>
          some { sd with aborted := sd.aborted ++ [task], stage := .aborting todo pending }
      | .aborting [] pending =>
          some { sd with stage := .draining true sd.deadline.at_ pending [] }
      -- `completed` is read before the rest is deferred
      | .draining true _ [] pending =>
          some { sd with stage := .deferring pending.isEmpty pending }
      | .deferring completed (task :: todo) =>
          some { sd with handed := sd.handed ++ [task], stage := .deferring completed todo }
      | .deferring completed [] => some { sd with stage := .returned completed }
      | _ => none
  | .drops =>
      match sd.stage with
      -- the drop of an `OwnedTask` with its join defers it
      | .draining _ _ (task :: todo) pending =>
          some { sd with handed := sd.handed ++ (task :: todo ++ pending), stage := .dropped }
      | _ => none

end Shutdown

/-! ## The trackers -/

/-- `ChildTaskTracker`: its state, the task that a `spawn` holding the lock has yet to push, and its
shutdown. -/
structure ChildTaskTracker (limit : Nat) where
  closed : Bool := false
  tasks : List Nat := []
  spawning : Option Nat := none
  shutdown : Option (Shutdown limit) := none
deriving DecidableEq

/-- The trackers of one probe. -/
structure ChildTasks (τ : Type) (limit : Nat) where
  now : Instant limit
  active : Nat := 0
  tasks : List (ChildTask τ limit) := []
  trackers : τ → ChildTaskTracker limit := fun _ => {}

inductive ChildTaskLabel (τ : Type) (limit : Nat) where
  | advance (later : Instant limit)
  | spawn (tracker : τ)
  | push (tracker : τ)
  | bodyEnds (task : Nat)
  | finishes (task : Nat)
  | close (tracker : τ) (deadline : ShutdownDeadline limit)
  | shutdown (tracker : τ) (label : ShutdownLabel limit)

namespace ChildTasks

variable [DecidableEq τ]

def setTracker (s : ChildTasks τ limit) (tracker : τ) (state : ChildTaskTracker limit) :
    ChildTasks τ limit :=
  { s with trackers := Function.update s.trackers tracker state }

/-- `spawn`, up to its push: the task it has started, if any. -/
def spawn (s : ChildTasks τ limit) (tracker : τ) : Option Nat × ChildTasks τ limit :=
  let state := s.trackers tracker
  if state.closed then (none, s)
  else
    -- the count goes up before the task can run
    let task := s.tasks.length
    let started : ChildTasks τ limit :=
      { s with active := s.active + 1, tasks := s.tasks ++ [{ tracker := tracker }] }
    (some task, started.setTracker tracker { state with spawning := some task })

def step (s : ChildTasks τ limit) : ChildTaskLabel τ limit → Option (ChildTasks τ limit)
  | .advance later => if s.now ≤ later then some { s with now := later } else none
  | .spawn tracker =>
      -- the lock may be held by another call
      match (s.trackers tracker).spawning with
      | none => some (s.spawn tracker).2
      | some _ => none
  | .push tracker =>
      let state := s.trackers tracker
      match state.spawning with
      | some task =>
          let tasks := state.tasks ++ [task]
          some (s.setTracker tracker { state with tasks, spawning := none })
      | none => none
  | .bodyEnds task =>
      match s.tasks[task]? with
      | some found =>
          -- completed, aborted or panicked: the guard is dropped in any case
          if found.bodyEnded then none
          else
            some
              { s with
                active := s.active - 1
                tasks := s.tasks.set task { found with bodyEnded := true } }
      | none => none
  | .finishes task =>
      match s.tasks[task]? with
      | some found =>
          if found.bodyEnded ∧ found.finishedAt = none then
            some { s with tasks := s.tasks.set task { found with finishedAt := some s.now } }
          else none
      | none => none
  | .close tracker deadline =>
      let state := s.trackers tracker
      if state.spawning = none ∧ state.shutdown = none then
        some (s.setTracker tracker
          { state with
            closed := true
            tasks := []
            shutdown := some { deadline, stage := .closed state.tasks } })
      else none
  | .shutdown tracker label =>
      let state := s.trackers tracker
      match state.shutdown with
      | some sd =>
          (sd.step s.now s.tasks label).map fun sd =>
            s.setTracker tracker { state with shutdown := some sd }
      | none => none

end ChildTasks

def childTasks (τ : Type) [DecidableEq τ] (limit : Nat) :
    Machine (ChildTasks τ limit) (ChildTaskLabel τ limit) where
  step := ChildTasks.step

/-! ## One step of a shutdown -/

/-- A time has come, and the join of the task was not ready before it. -/
def Late (now : Instant limit) (tasks : List (ChildTask τ limit)) (upTo : Instant limit)
    (task : Nat) : Prop :=
  upTo ≤ now ∧ ∀ finished, finishedAt tasks task = some finished → upTo ≤ finished

namespace Shutdown

/-- The tasks that a stage still has to settle. -/
def held (sd : Shutdown limit) : List Nat :=
  match sd.stage with
  | .closed tasks => tasks
  | .draining _ _ todo pending => todo ++ pending
  | .aborting _ pending => pending
  | .deferring _ todo => todo
  | .returned _ | .dropped => []

/-- The tasks that one of the drains has joined. -/
def joinedIn (sd : Shutdown limit) (final : Bool) : List Nat :=
  (sd.joined.filter fun join => join.final == final).map Join.task

/-- All the tasks that it has taken. -/
def taken (sd : Shutdown limit) : List Nat :=
  sd.joinedIn false ++ sd.joinedIn true ++ sd.handed ++ sd.held

/-- The final drain has begun, and was not dropped. -/
def finalBegun (sd : Shutdown limit) : Bool :=
  match sd.stage with
  | .draining final _ _ _ => final
  | .deferring _ _ | .returned _ => true
  | .closed _ | .aborting _ _ | .dropped => false

/-- What is known at a stage of the tasks that it has gone through. -/
def StageInv (now : Instant limit) (tasks : List (ChildTask τ limit)) (sd : Shutdown limit) :
    Prop :=
  match sd.stage with
  | .closed _ => sd.joined = [] ∧ sd.aborted = [] ∧ sd.handed = []
  | .draining false upTo _ pending =>
      sd.joinedIn true = [] ∧ sd.aborted = [] ∧ sd.handed = [] ∧ sd.abortAt = some upTo ∧
        ∀ task ∈ pending, Late now tasks upTo task
  | .aborting todo pending =>
      sd.joinedIn true = [] ∧ sd.aborted ++ todo = pending ∧ sd.handed = [] ∧
        ∃ abortAt, sd.abortAt = some abortAt ∧ ∀ task ∈ pending, Late now tasks abortAt task
  | .draining true upTo _ pending =>
      upTo = sd.deadline.at_ ∧ sd.handed = [] ∧ ∀ task ∈ pending, Late now tasks upTo task
  | .deferring completed todo =>
      (completed = true ↔ sd.handed ++ todo = []) ∧
        ∀ task ∈ sd.handed ++ todo, Late now tasks sd.deadline.at_ task
  | .returned completed =>
      (completed = true ↔ sd.handed = []) ∧
        ∀ task ∈ sd.handed, Late now tasks sd.deadline.at_ task
  | .dropped => True

structure Inv (now : Instant limit) (tasks : List (ChildTask τ limit)) (sd : Shutdown limit) :
    Prop where
  abortAt : ∀ abortAt, sd.abortAt = some abortAt →
    ∃ first second, first ≤ second ∧ second ≤ now ∧ abortAt = sd.deadline.abortAt first second
  joins : ∀ join ∈ sd.joined, join.at_ ≤ now ∧
    ∃ finished, finishedAt tasks join.task = some finished ∧ finished ≤ join.at_
  aborted : ∀ task ∈ sd.aborted, ∃ abortAt, sd.abortAt = some abortAt ∧
    Late now tasks abortAt task
  rest : sd.finalBegun = true → sd.abortAt.isSome = true ∧
    (sd.joinedIn true ++ sd.handed ++ sd.held).Perm sd.aborted
  stage : StageInv now tasks sd

/-- The joins of a drain, with one more. -/
theorem joinedIn_concat (sd : Shutdown limit) (join : Join limit) (stage : ShutdownStage limit)
    (final : Bool) :
    ({ sd with joined := sd.joined ++ [join], stage := stage } : Shutdown limit).joinedIn final =
      sd.joinedIn final ++ if join.final == final then [join.task] else [] := by
  unfold joinedIn
  rw [List.filter_append, List.map_append]
  cases hfinal : join.final == final with
  | true => simp [hfinal]
  | false => simp [hfinal]

variable {now : Instant limit} {tasks : List (ChildTask τ limit)} {sd sd' : Shutdown limit}

/-- What one step of a shutdown can do. -/
inductive Steps (now : Instant limit) (tasks : List (ChildTask τ limit)) (sd : Shutdown limit) :
    Shutdown limit → Prop where
  | readAbortAt {first : Instant limit} {owned : List Nat} (hstage : sd.stage = .closed owned)
      (hfirst : first ≤ now) :
      Steps now tasks sd
        { sd with
          abortAt := some (sd.deadline.abortAt first now)
          stage := .draining false (sd.deadline.abortAt first now) owned [] }
  | joins {final : Bool} {upTo : Instant limit} {task : Nat} {todo pending : List Nat}
      (hstage : sd.stage = .draining final upTo (task :: todo) pending) {finished : Instant limit}
      (hfinished : finishedAt tasks task = some finished) :
      Steps now tasks sd
        { sd with
          joined := sd.joined ++ [{ task, at_ := now, final }]
          stage := .draining final upTo todo pending }
  | elapses {final : Bool} {upTo : Instant limit} {task : Nat} {todo pending : List Nat}
      (hstage : sd.stage = .draining final upTo (task :: todo) pending)
      (hlate : Late now tasks upTo task) :
      Steps now tasks sd { sd with stage := .draining final upTo todo (pending ++ [task]) }
  | endsFirst {upTo : Instant limit} {pending : List Nat}
      (hstage : sd.stage = .draining false upTo [] pending) :
      Steps now tasks sd { sd with stage := .aborting pending pending }
  | aborts {task : Nat} {todo pending : List Nat}
      (hstage : sd.stage = .aborting (task :: todo) pending) :
      Steps now tasks sd
        { sd with aborted := sd.aborted ++ [task], stage := .aborting todo pending }
  | beginsFinal {pending : List Nat} (hstage : sd.stage = .aborting [] pending) :
      Steps now tasks sd { sd with stage := .draining true sd.deadline.at_ pending [] }
  | endsFinal {upTo : Instant limit} {pending : List Nat}
      (hstage : sd.stage = .draining true upTo [] pending) :
      Steps now tasks sd { sd with stage := .deferring pending.isEmpty pending }
  | defers {completed : Bool} {task : Nat} {todo : List Nat}
      (hstage : sd.stage = .deferring completed (task :: todo)) :
      Steps now tasks sd
        { sd with handed := sd.handed ++ [task], stage := .deferring completed todo }
  | returns {completed : Bool} (hstage : sd.stage = .deferring completed []) :
      Steps now tasks sd { sd with stage := .returned completed }
  | drops {final : Bool} {upTo : Instant limit} {task : Nat} {todo pending : List Nat}
      (hstage : sd.stage = .draining final upTo (task :: todo) pending) :
      Steps now tasks sd
        { sd with handed := sd.handed ++ (task :: todo ++ pending), stage := .dropped }

/-- `Steps` has every step of a shutdown. -/
theorem steps_of_step {label : ShutdownLabel limit} (h : sd.step now tasks label = some sd') :
    Steps now tasks sd sd' := by
  cases label with
  | readAbortAt first =>
      simp only [step] at h
      split at h
      · split at h
        · rename_i hstage hfirst
          cases h
          exact .readAbortAt hstage hfirst
        · cases h
      · cases h
  | joins =>
      simp only [step] at h
      split at h
      · split at h
        · rename_i hstage hsome
          cases h
          exact .joins hstage (Option.some_get hsome).symm
        · cases h
      · cases h
  | elapses =>
      -- `timeout_at` polls the join first, so the task had not ended at that time
      simp only [step] at h
      split at h
      · split at h
        · rename_i hstage hlate
          cases h
          refine .elapses hstage ⟨hlate.1, fun finished hfinished => ?_⟩
          have hall := hlate.2
          rw [hfinished] at hall
          exact of_decide_eq_true hall
        · cases h
      · cases h
  | proceeds =>
      -- the transitions between the loops of the source
      simp only [step] at h
      split at h
      · rename_i hstage
        cases h
        exact .endsFirst hstage
      · rename_i hstage
        cases h
        exact .aborts hstage
      · rename_i hstage
        cases h
        exact .beginsFinal hstage
      · rename_i hstage
        cases h
        exact .endsFinal hstage
      · rename_i hstage
        cases h
        exact .defers hstage
      · rename_i hstage
        cases h
        exact .returns hstage
      · cases h
  | drops =>
      simp only [step] at h
      split at h
      · rename_i hstage
        cases h
        exact .drops hstage
      · cases h

/-- No step loses a task or settles it twice. -/
theorem Steps.taken_perm (h : Steps now tasks sd sd') : sd'.taken.Perm sd.taken := by
  unfold taken
  cases h with
  | readAbortAt hstage hfirst => simp [held, hstage, joinedIn]
  | joins hstage hfinished =>
      rename_i final _ task todo pending _
      rw [joinedIn_concat, joinedIn_concat, List.perm_iff_count]
      intro a
      cases final with
      | false =>
          simp [held, hstage, List.count_append, List.count_cons]
          omega
      | true =>
          simp [held, hstage, List.count_append, List.count_cons]
          omega
  | elapses hstage hlate =>
      rw [List.perm_iff_count]
      intro a
      simp [held, hstage, joinedIn, List.count_append, List.count_cons]
      omega
  | endsFirst hstage => simp [held, hstage, joinedIn]
  | aborts hstage => simp [held, hstage, joinedIn]
  | beginsFinal hstage => simp [held, hstage, joinedIn]
  | endsFinal hstage => simp [held, hstage, joinedIn]
  | defers hstage => simp [held, hstage, joinedIn]
  | returns hstage => simp [held, hstage, joinedIn]
  | drops hstage => simp [held, hstage, joinedIn]

/-- Each step of a shutdown keeps what is known of it. -/
theorem Steps.inv (h : Steps now tasks sd sd') (hinv : Inv now tasks sd)
    (hnow : ∀ task finished, finishedAt tasks task = some finished → finished ≤ now) :
    Inv now tasks sd' := by
  have hknown := hinv.stage
  have hrest := hinv.rest
  cases h with
  | readAbortAt hstage hfirst =>
      rename_i first owned
      simp only [StageInv, hstage] at hknown
      constructor
      · intro abortAt habort
        exact ⟨first, now, hfirst, le_refl now, (Option.some.inj habort).symm⟩
      · exact hinv.joins
      · intro task hmem
        rw [hknown.2.1] at hmem
        cases hmem
      · intro hbegun
        cases hbegun
      · refine ⟨?_, hknown.2.1, hknown.2.2, rfl, ?_⟩
        · simp [joinedIn, hknown.1]
        · intro task hmem
          cases hmem
  | joins hstage hfinished =>
      -- the task goes from `todo` to the joins of this drain
      rename_i final upTo task todo pending finished
      constructor
      · exact hinv.abortAt
      · intro join hmem
        rcases List.mem_append.mp hmem with hmem | hmem
        · exact hinv.joins join hmem
        · obtain rfl := List.mem_singleton.mp hmem
          exact ⟨le_refl now, finished, hfinished, hnow task finished hfinished⟩
      · exact hinv.aborted
      · intro hbegun
        have hfinal : final = true := hbegun
        subst hfinal
        have hbefore := hrest (by rw [finalBegun, hstage])
        rw [joinedIn_concat]
        refine ⟨hbefore.1, List.Perm.trans ?_ hbefore.2⟩
        rw [List.perm_iff_count]
        intro a
        simp [held, hstage, List.count_append, List.count_cons]
        omega
      · cases final with
        | false =>
            simp only [StageInv, hstage] at hknown
            refine ⟨?_, hknown.2⟩
            rw [joinedIn_concat, hknown.1]
            rfl
        | true =>
            simp only [StageInv, hstage] at hknown
            exact hknown
  | elapses hstage hlate =>
      -- the task goes from `todo` to those that are pending
      rename_i final upTo task todo pending
      have hpending : (∀ other ∈ pending, Late now tasks upTo other) →
          ∀ other ∈ pending ++ [task], Late now tasks upTo other := by
        intro hbefore other hmem
        rcases List.mem_append.mp hmem with hmem | hmem
        · exact hbefore other hmem
        · obtain rfl := List.mem_singleton.mp hmem
          exact hlate
      refine ⟨hinv.abortAt, hinv.joins, hinv.aborted, ?_, ?_⟩
      · intro hbegun
        have hfinal : final = true := hbegun
        subst hfinal
        have hbefore := hrest (by rw [finalBegun, hstage])
        refine ⟨hbefore.1, List.Perm.trans ?_ hbefore.2⟩
        rw [List.perm_iff_count]
        intro a
        simp [held, hstage, joinedIn, List.count_append, List.count_cons]
        omega
      · cases final with
        | false =>
            simp only [StageInv, hstage] at hknown
            rcases hknown with ⟨hjoined, haborted, hhanded, habort, hlates⟩
            exact ⟨hjoined, haborted, hhanded, habort, hpending hlates⟩
        | true =>
            simp only [StageInv, hstage] at hknown
            rcases hknown with ⟨hdeadline, hhanded, hlates⟩
            exact ⟨hdeadline, hhanded, hpending hlates⟩
  | endsFirst hstage =>
      -- from here the pending tasks are aborted one by one
      simp only [StageInv, hstage] at hknown
      rcases hknown with ⟨hjoined, haborted, hhanded, habort, hlates⟩
      refine ⟨hinv.abortAt, hinv.joins, hinv.aborted, nofun, hjoined, ?_, hhanded, _, habort,
        hlates⟩
      show sd.aborted ++ _ = _
      rw [haborted, List.nil_append]
  | aborts hstage =>
      rename_i task todo pending
      simp only [StageInv, hstage] at hknown
      rcases hknown with ⟨hjoined, haborted, hhanded, abortAt, habort, hlates⟩
      refine ⟨hinv.abortAt, hinv.joins, ?_, nofun, hjoined, ?_, hhanded, abortAt, habort, hlates⟩
      · intro other hmem
        rcases List.mem_append.mp hmem with hmem | hmem
        · exact hinv.aborted other hmem
        · obtain rfl := List.mem_singleton.mp hmem
          refine ⟨abortAt, habort, hlates other ?_⟩
          rw [← haborted]
          exact List.mem_append_right _ List.mem_cons_self
      · show sd.aborted ++ [task] ++ todo = pending
        rw [List.append_assoc]
        exact haborted
  | beginsFinal hstage =>
      -- all that is pending has been aborted, and nothing else
      simp only [StageInv, hstage] at hknown
      rcases hknown with ⟨hjoined, haborted, hhanded, abortAt, habort, _⟩
      rw [List.append_nil] at haborted
      refine ⟨hinv.abortAt, hinv.joins, hinv.aborted, ?_, rfl, hhanded, nofun⟩
      intro _
      refine ⟨Option.isSome_of_eq_some habort, ?_⟩
      show (sd.joinedIn true ++ sd.handed ++ (_ ++ [])).Perm sd.aborted
      rw [hjoined, hhanded, haborted, List.append_nil, List.nil_append, List.append_nil]
  | endsFinal hstage =>
      -- nothing has been handed over yet, so the result says whether anything will be
      rename_i upTo pending
      have hbefore := hrest (by rw [finalBegun, hstage])
      simp only [StageInv, hstage] at hknown
      rcases hknown with ⟨hdeadline, hhanded, hlates⟩
      refine ⟨hinv.abortAt, hinv.joins, hinv.aborted, ?_, ?_, ?_⟩
      · intro _
        rw [held, hstage] at hbefore
        exact hbefore
      · show pending.isEmpty = true ↔ sd.handed ++ pending = []
        rw [hhanded, List.nil_append, List.isEmpty_iff]
      · show ∀ task ∈ sd.handed ++ pending, Late now tasks sd.deadline.at_ task
        rw [hhanded, List.nil_append, ← hdeadline]
        exact hlates
  | defers hstage =>
      -- one more is handed over, and one less is held
      rename_i completed task todo
      have hbefore := hrest (by rw [finalBegun, hstage])
      simp only [StageInv, hstage] at hknown
      rcases hknown with ⟨hcompleted, hlates⟩
      refine ⟨hinv.abortAt, hinv.joins, hinv.aborted, ?_, ?_, ?_⟩
      · intro _
        refine ⟨hbefore.1, ?_⟩
        have hperm := hbefore.2
        show (sd.joinedIn true ++ (sd.handed ++ [task]) ++ todo).Perm sd.aborted
        rw [held, hstage] at hperm
        simpa using hperm
      · show completed = true ↔ sd.handed ++ [task] ++ todo = []
        rw [List.append_assoc]
        exact hcompleted
      · show ∀ other ∈ sd.handed ++ [task] ++ todo, Late now tasks sd.deadline.at_ other
        rw [List.append_assoc]
        exact hlates
  | returns hstage =>
      have hbefore := hrest (by rw [finalBegun, hstage])
      simp only [StageInv, hstage] at hknown
      rw [List.append_nil] at hknown
      refine ⟨hinv.abortAt, hinv.joins, hinv.aborted, ?_, hknown⟩
      intro _
      rw [held, hstage] at hbefore
      exact hbefore
  | drops hstage =>
      -- a dropped shutdown has handed over all that it held
      exact ⟨hinv.abortAt, hinv.joins, hinv.aborted, nofun, trivial⟩

end Shutdown

/-! ## Tasks and time go on -/

/-- Later the same joins are ready, and others that have become so at that time. -/
structure Evolves (now : Instant limit) (tasks : List (ChildTask τ limit)) (later : Instant limit)
    (tasks' : List (ChildTask τ limit)) : Prop where
  le : now ≤ later
  finished : ∀ task, finishedAt tasks' task = finishedAt tasks task ∨
    finishedAt tasks task = none ∧ finishedAt tasks' task = some later

section Evolves

variable {now later : Instant limit} {tasks tasks' : List (ChildTask τ limit)}

theorem Evolves.of_finished_eq (hle : now ≤ later)
    (h : ∀ task, finishedAt tasks' task = finishedAt tasks task) : Evolves now tasks later tasks' :=
  ⟨hle, fun task => .inl (h task)⟩

theorem Late.evolves {upTo : Instant limit} {task : Nat} (h : Late now tasks upTo task)
    (hworld : Evolves now tasks later tasks') : Late later tasks' upTo task := by
  refine ⟨h.1.trans hworld.le, fun finished hfinished => ?_⟩
  rcases hworld.finished task with hsame | ⟨_, hnew⟩
  · exact h.2 finished (hsame.symm.trans hfinished)
  · -- it has become ready after the time had come
    obtain rfl : later = finished := Option.some.inj (hnew.symm.trans hfinished)
    exact h.1.trans hworld.le

/-- What is known of a shutdown stays true when tasks end and time passes. -/
theorem Shutdown.Inv.evolves {sd : Shutdown limit} (h : sd.Inv now tasks)
    (hworld : Evolves now tasks later tasks') : sd.Inv later tasks' := by
  have hknown := h.stage
  constructor
  · intro abortAt habort
    -- the clock was read in the past
    rcases h.abortAt abortAt habort with ⟨first, second, hle, hnow, heq⟩
    exact ⟨first, second, hle, hnow.trans hworld.le, heq⟩
  · intro join hmem
    rcases h.joins join hmem with ⟨hnow, finished, hfinished, hle⟩
    refine ⟨hnow.trans hworld.le, finished, ?_, hle⟩
    rcases hworld.finished join.task with hsame | ⟨hnone, _⟩
    · exact hsame.trans hfinished
    · rw [hnone] at hfinished
      cases hfinished
  · intro task hmem
    rcases h.aborted task hmem with ⟨abortAt, habort, hlate⟩
    exact ⟨abortAt, habort, hlate.evolves hworld⟩
  · exact h.rest
  · have hall : ∀ {upTo : Instant limit} {pending : List Nat},
        (∀ task ∈ pending, Late now tasks upTo task) →
          ∀ task ∈ pending, Late later tasks' upTo task := by
      intro upTo pending hlates task hmem
      exact (hlates task hmem).evolves hworld
    unfold Shutdown.StageInv at *
    split at hknown
    · exact hknown
    · rcases hknown with ⟨hjoined, haborted, hhanded, habort, hlates⟩
      exact ⟨hjoined, haborted, hhanded, habort, hall hlates⟩
    · rcases hknown with ⟨hjoined, haborted, hhanded, abortAt, habort, hlates⟩
      exact ⟨hjoined, haborted, hhanded, abortAt, habort, hall hlates⟩
    · exact ⟨hknown.1, hknown.2.1, hall hknown.2.2⟩
    · exact ⟨hknown.1, hall hknown.2⟩
    · exact ⟨hknown.1, hall hknown.2⟩
    · trivial

end Evolves

section Tasks

variable {tasks : List (ChildTask τ limit)} {task : Nat} {found : ChildTask τ limit}

theorem finishedAt_concat (tracker : τ) (other : Nat) :
    finishedAt (tasks ++ [({ tracker := tracker } : ChildTask τ limit)]) other =
      finishedAt tasks other := by
  unfold finishedAt
  rcases Nat.lt_trichotomy other tasks.length with hlt | rfl | hgt
  · rw [List.getElem?_append_left hlt]
  · simp
  · rw [List.getElem?_eq_none (by simp; omega), List.getElem?_eq_none hgt.le]

/-- A step of one task leaves the others alone. -/
theorem finishedAt_set (hfound : tasks[task]? = some found) (changed : ChildTask τ limit)
    (other : Nat) :
    finishedAt (tasks.set task changed) other =
      if other = task then changed.finishedAt else finishedAt tasks other := by
  have hlt := (List.getElem?_eq_some_iff.mp hfound).1
  unfold finishedAt
  rw [List.getElem?_set]
  split
  · rename_i heq
    rw [if_pos heq.symm]
    rfl
  · rename_i hne
    rw [if_neg (Ne.symm hne)]

theorem countP_bodyEnds (hfound : tasks[task]? = some found) (hruns : found.bodyEnded = false) :
    (tasks.set task { found with bodyEnded := true }).countP (fun task => !task.bodyEnded) =
      (tasks.countP fun task => !task.bodyEnded) - 1 := by
  rcases List.getElem?_eq_some_iff.mp hfound with ⟨hlt, heq⟩
  rw [List.countP_set hlt, heq]
  simp [hruns]

variable [DecidableEq τ]

/-- A new task is one of its tracker. -/
theorem acceptedTasks_concat (tracker other : τ) :
    acceptedTasks (tasks ++ [({ tracker := other } : ChildTask τ limit)]) tracker =
      acceptedTasks tasks tracker ++ if other = tracker then [tasks.length] else [] := by
  unfold acceptedTasks
  rw [List.length_append, List.length_singleton, List.range_succ, List.filter_append]
  congr 1
  · apply List.filter_congr
    intro task hmem
    rw [List.getElem?_append_left (List.mem_range.mp hmem)]
  · by_cases heq : other = tracker
    · simp [heq]
    · simp [heq]

/-- A task stays with its tracker. -/
theorem acceptedTasks_set (hfound : tasks[task]? = some found) {changed : ChildTask τ limit}
    (hsame : changed.tracker = found.tracker) (tracker : τ) :
    acceptedTasks (tasks.set task changed) tracker = acceptedTasks tasks tracker := by
  unfold acceptedTasks
  rw [List.length_set]
  apply List.filter_congr
  intro other _
  rw [List.getElem?_set]
  split
  · rename_i heq
    subst heq
    rw [if_pos (List.getElem?_eq_some_iff.mp hfound).1, hfound]
    simp [hsame]
  · rfl

end Tasks

/-! ## The invariant -/

/-- All the tasks of a tracker, wherever they are. -/
def ChildTaskTracker.all (state : ChildTaskTracker limit) : List Nat :=
  (state.shutdown.map Shutdown.taken).getD [] ++ state.tasks ++ state.spawning.toList

section Inv

variable [DecidableEq τ]

structure TrackerInv (now : Instant limit) (tasks : List (ChildTask τ limit)) (tracker : τ)
    (state : ChildTaskTracker limit) : Prop where
  once : state.all.Perm (acceptedTasks tasks tracker)
  closed : state.closed = state.shutdown.isSome
  empty : state.closed = true → state.tasks = [] ∧ state.spawning = none
  shutdown : ∀ sd, state.shutdown = some sd → sd.Inv now tasks

/-- What is known of a tracker stays true while it has the same tasks. -/
theorem TrackerInv.evolves {now later : Instant limit} {tasks tasks' : List (ChildTask τ limit)}
    {tracker : τ} {state : ChildTaskTracker limit} (h : TrackerInv now tasks tracker state)
    (hworld : Evolves now tasks later tasks')
    (hsame : acceptedTasks tasks' tracker = acceptedTasks tasks tracker) :
    TrackerInv later tasks' tracker state := by
  refine ⟨?_, h.closed, h.empty, fun sd hsd => (h.shutdown sd hsd).evolves hworld⟩
  rw [hsame]
  exact h.once

namespace ChildTasks

structure Inv (s : ChildTasks τ limit) : Prop where
  active : s.active = s.tasks.countP fun task => !task.bodyEnded
  finished : ∀ task finished, finishedAt s.tasks task = some finished → finished ≤ s.now
  trackers : ∀ tracker, TrackerInv s.now s.tasks tracker (s.trackers tracker)

/-- A step on one tracker leaves the others alone. -/
theorem inv_setTracker {s : ChildTasks τ limit} {tracker : τ} {state : ChildTaskTracker limit}
    (hactive : s.active = s.tasks.countP fun task => !task.bodyEnded)
    (hfinished : ∀ task finished, finishedAt s.tasks task = some finished → finished ≤ s.now)
    (hothers : ∀ other, other ≠ tracker → TrackerInv s.now s.tasks other (s.trackers other))
    (hstate : TrackerInv s.now s.tasks tracker state) : (s.setTracker tracker state).Inv := by
  refine ⟨hactive, hfinished, fun other => ?_⟩
  show TrackerInv s.now s.tasks other (Function.update s.trackers tracker state other)
  by_cases heq : other = tracker
  · subst heq
    rw [Function.update_self]
    exact hstate
  · rw [Function.update_of_ne heq]
    exact hothers other heq

variable {s s' : ChildTasks τ limit} {tracker : τ}

theorem Inv.setTracker (h : s.Inv) {state : ChildTaskTracker limit}
    (hstate : TrackerInv s.now s.tasks tracker state) : (s.setTracker tracker state).Inv :=
  inv_setTracker h.active h.finished (fun other _ => h.trackers other) hstate

theorem spawn_of_closed (h : (s.trackers tracker).closed = true) : s.spawn tracker = (none, s) :=
  if_pos h

/-- A spawn keeps the invariant, between its two critical sections. -/
theorem spawn_inv (h : s.Inv) (hfree : (s.trackers tracker).spawning = none) :
    (s.spawn tracker).2.Inv := by
  cases hclosed : (s.trackers tracker).closed with
  | true =>
      rw [spawn_of_closed hclosed]
      exact h
  | false =>
      have hstate := h.trackers tracker
      have hfinished := @finishedAt_concat τ limit s.tasks tracker
      have hworld : Evolves s.now s.tasks s.now (s.tasks ++ [{ tracker := tracker }]) :=
        .of_finished_eq (le_refl _) hfinished
      -- the new task is with no tracker but this one, as the one that is to be pushed
      have hspawn : s.spawn tracker = _ := if_neg (by rw [hclosed]; exact Bool.false_ne_true)
      rw [hspawn]
      apply inv_setTracker
      · show s.active + 1 = List.countP _ (s.tasks ++ [_])
        rw [List.countP_append, h.active]
        rfl
      · intro task finished hsome
        exact h.finished task finished ((hfinished task).symm.trans hsome)
      · intro other hne
        apply (h.trackers other).evolves hworld
        rw [acceptedTasks_concat, if_neg (Ne.symm hne), List.append_nil]
      · constructor
        · have honce := hstate.once
          rw [ChildTaskTracker.all, hfree] at honce
          rw [acceptedTasks_concat, if_pos rfl]
          simpa [ChildTaskTracker.all] using honce.append_right [s.tasks.length]
        · exact hstate.closed
        · intro hnot
          rw [show (s.trackers tracker).closed = true from hnot] at hclosed
          cases hclosed
        · intro sd hsd
          exact (hstate.shutdown sd hsd).evolves hworld

/-- The second critical section puts the handle into the list. -/
theorem push_inv (h : s.Inv) {task : Nat} (hspawning : (s.trackers tracker).spawning = some task) :
    (s.setTracker tracker
      { s.trackers tracker with
        tasks := (s.trackers tracker).tasks ++ [task], spawning := none }).Inv := by
  have hstate := h.trackers tracker
  apply h.setTracker
  constructor
  · have honce := hstate.once
    rw [ChildTaskTracker.all, hspawning] at honce
    simpa [ChildTaskTracker.all] using honce
  · exact hstate.closed
  · -- the lock was taken before the tracker could be closed
    intro hclosed
    have hempty := hstate.empty hclosed
    rw [hspawning] at hempty
    cases hempty.2
  · exact hstate.shutdown

/-- The first call of `shutdown` takes all the handles. -/
theorem close_inv (h : s.Inv) (deadline : ShutdownDeadline limit)
    (hfree : (s.trackers tracker).spawning = none) (hfirst : (s.trackers tracker).shutdown = none) :
    (s.setTracker tracker
      { s.trackers tracker with
        closed := true
        tasks := []
        shutdown := some { deadline, stage := .closed (s.trackers tracker).tasks } }).Inv := by
  have hstate := h.trackers tracker
  apply h.setTracker
  constructor
  · have honce := hstate.once
    rw [ChildTaskTracker.all, hfree, hfirst] at honce
    simpa [ChildTaskTracker.all, hfree, Shutdown.taken, Shutdown.joinedIn, Shutdown.held]
      using honce
  · rfl
  · intro _
    exact ⟨rfl, hfree⟩
  · intro sd hsd
    obtain rfl := Option.some.inj hsd
    exact ⟨nofun, nofun, nofun, nofun, rfl, rfl, rfl⟩

/-- A step of the shutdown is one of its tracker. -/
theorem shutdown_inv (h : s.Inv) {sd sd' : Shutdown limit}
    (hsd : (s.trackers tracker).shutdown = some sd) (hsteps : sd.Steps s.now s.tasks sd') :
    (s.setTracker tracker { s.trackers tracker with shutdown := some sd' }).Inv := by
  have hstate := h.trackers tracker
  apply h.setTracker
  constructor
  · have honce := hstate.once
    rw [ChildTaskTracker.all, hsd] at honce
    exact ((hsteps.taken_perm.append_right _).append_right _).trans honce
  · rw [hstate.closed, hsd]
    rfl
  · exact hstate.empty
  · intro other hother
    obtain rfl := Option.some.inj hother
    exact hsteps.inv (hstate.shutdown sd hsd) h.finished

/-- A step on the tasks that keeps their trackers. -/
theorem Inv.setTasks (h : s.Inv) {tasks : List (ChildTask τ limit)} {active : Nat}
    (hactive : active = tasks.countP fun task => !task.bodyEnded)
    (hworld : Evolves s.now s.tasks s.now tasks)
    (hsame : ∀ tracker, acceptedTasks tasks tracker = acceptedTasks s.tasks tracker) :
    ({ s with active, tasks } : ChildTasks τ limit).Inv := by
  constructor
  · exact hactive
  · intro task finished hfinished
    rcases hworld.finished task with hold | ⟨_, hnew⟩
    · exact h.finished task finished (hold.symm.trans hfinished)
    · exact (Option.some.inj (hnew.symm.trans hfinished)).symm.le
  · intro tracker
    exact (h.trackers tracker).evolves hworld (hsame tracker)

/-- A body that ends is counted off. -/
theorem bodyEnds_inv (h : s.Inv) {task : Nat} {found : ChildTask τ limit}
    (hfound : s.tasks[task]? = some found) (hruns : found.bodyEnded = false) :
    ({ s with
      active := s.active - 1
      tasks := s.tasks.set task { found with bodyEnded := true } } : ChildTasks τ limit).Inv := by
  apply h.setTasks
  · rw [countP_bodyEnds hfound hruns, h.active]
  · apply Evolves.of_finished_eq (le_refl _)
    intro other
    rw [finishedAt_set hfound]
    split
    · rename_i heq
      rw [heq, finishedAt, hfound]
      rfl
    · rfl
  · exact acceptedTasks_set hfound rfl

/-- A join becomes ready now. -/
theorem finishes_inv (h : s.Inv) {task : Nat} {found : ChildTask τ limit}
    (hfound : s.tasks[task]? = some found) (hnone : found.finishedAt = none) :
    ({ s with
      tasks := s.tasks.set task { found with finishedAt := some s.now } } :
        ChildTasks τ limit).Inv := by
  apply h.setTasks
  · rw [h.active]
    rcases List.getElem?_eq_some_iff.mp hfound with ⟨hlt, heq⟩
    rw [List.countP_set hlt, heq]
    -- the task counts as before
    have hcount : (if (!found.bodyEnded) = true then 1 else 0) ≤
        s.tasks.countP fun task => !task.bodyEnded := by
      split
      · rename_i hruns
        exact List.countP_pos_iff.mpr ⟨found, List.mem_of_getElem? hfound, hruns⟩
      · exact Nat.zero_le _
    exact (Nat.sub_add_cancel hcount).symm
  · refine ⟨le_refl _, fun other => ?_⟩
    rw [finishedAt_set hfound]
    split
    · rename_i heq
      refine .inr ⟨?_, rfl⟩
      rw [heq, finishedAt, hfound]
      exact hnone
    · exact .inl rfl
  · exact acceptedTasks_set hfound rfl

/-- Each step of the child tasks keeps the invariant. -/
theorem step_inv {label : ChildTaskLabel τ limit} (hstep : s.step label = some s') (h : s.Inv) :
    s'.Inv := by
  cases label with
  | advance later =>
      simp only [step] at hstep
      split at hstep
      · rename_i hle
        cases hstep
        have hworld : Evolves s.now s.tasks later s.tasks := .of_finished_eq hle fun _ => rfl
        constructor
        · exact h.active
        · intro task finished hfinished
          exact (h.finished task finished hfinished).trans hle
        · intro tracker
          exact (h.trackers tracker).evolves hworld rfl
      · cases hstep
  | spawn tracker =>
      simp only [step] at hstep
      split at hstep
      · rename_i hfree
        cases hstep
        exact spawn_inv h hfree
      · cases hstep
  | push tracker =>
      simp only [step] at hstep
      split at hstep
      · rename_i hspawning
        cases hstep
        exact push_inv h hspawning
      · cases hstep
  | bodyEnds task =>
      simp only [step] at hstep
      split at hstep
      · rename_i hfound
        split at hstep
        · cases hstep
        · rename_i hruns
          cases hstep
          exact bodyEnds_inv h hfound (Bool.eq_false_iff.mpr hruns)
      · cases hstep
  | finishes task =>
      simp only [step] at hstep
      split at hstep
      · rename_i hfound
        split at hstep
        · rename_i hready
          cases hstep
          exact finishes_inv h hfound hready.2
        · cases hstep
      · cases hstep
  | close tracker deadline =>
      simp only [step] at hstep
      split at hstep
      · rename_i hfree
        cases hstep
        exact close_inv h deadline hfree.1 hfree.2
      · cases hstep
  | shutdown tracker label =>
      simp only [step] at hstep
      split at hstep
      · rename_i sd hsd
        rcases Option.map_eq_some_iff.mp hstep with ⟨sd', hsd', rfl⟩
        exact shutdown_inv h hsd (Shutdown.steps_of_step hsd')
      · cases hstep

theorem start_inv (now : Instant limit) : ({ now } : ChildTasks τ limit).Inv := by
  refine ⟨rfl, nofun, fun tracker => ?_⟩
  exact ⟨List.Perm.refl _, rfl, nofun, nofun⟩

end ChildTasks

/-! ## What a shutdown has done -/

/-- From the start of the final drain on: what the first drain has not joined has been aborted. The
first drain joins each task that has finished before the abort time. -/
structure FinalDrain (s : ChildTasks τ limit) (tracker : τ) (sd : Shutdown limit) : Prop where
  aborted : (sd.joinedIn false ++ sd.aborted).Perm (acceptedTasks s.tasks tracker)
  abortAt : ∃ abortAt first second, sd.abortAt = some abortAt ∧ first ≤ second ∧ second ≤ s.now ∧
    abortAt = sd.deadline.abortAt first second ∧
    ∀ task ∈ acceptedTasks s.tasks tracker, ∀ finished, finishedAt s.tasks task = some finished →
      finished < abortAt → task ∈ sd.joinedIn false ∧ task ∉ sd.aborted

/-- When it returns. -/
structure ShutDown (s : ChildTasks τ limit) (tracker : τ) (sd : Shutdown limit) (completed : Bool) :
    Prop where
  /-- Each accepted task is joined or handed to the reaper, and only one of them and once. -/
  once : (sd.joined.map Join.task ++ sd.handed).Perm (acceptedTasks s.tasks tracker)
  nodup : (sd.joined.map Join.task ++ sd.handed).Nodup
  joins : ∀ join ∈ sd.joined,
    ∃ finished, finishedAt s.tasks join.task = some finished ∧ finished ≤ join.at_
  /-- The result. -/
  completed_iff : completed = true ↔
    ∀ task ∈ acceptedTasks s.tasks tracker, task ∈ sd.joined.map Join.task
  /-- A task that has finished before the deadline is joined. -/
  early : ∀ task ∈ acceptedTasks s.tasks tracker, ∀ finished,
    finishedAt s.tasks task = some finished → finished < sd.deadline.at_ →
      task ∈ sd.joined.map Join.task

/-- All joins are joins of the first drain or of the final one. -/
theorem joined_perm (sd : Shutdown limit) :
    (sd.joinedIn false ++ sd.joinedIn true).Perm (sd.joined.map Join.task) := by
  have hnot : (fun join : Join limit => join.final == true) =
      fun join => !(join.final == false) := by
    funext join
    cases join.final with
    | false => rfl
    | true => rfl
  unfold Shutdown.joinedIn
  rw [← List.map_append, hnot]
  exact (List.filter_append_perm _ sd.joined).map Join.task

theorem nodup_acceptedTasks (tasks : List (ChildTask τ limit)) (tracker : τ) :
    (acceptedTasks tasks tracker).Nodup :=
  List.nodup_range.filter _

namespace TrackerInv

variable {s : ChildTasks τ limit} {tracker : τ} {state : ChildTaskTracker limit}
  {sd : Shutdown limit}

/-- Once its shutdown has begun, all the tasks of a tracker are with the shutdown. -/
theorem taken_perm (h : TrackerInv s.now s.tasks tracker state) (hsd : state.shutdown = some sd) :
    sd.taken.Perm (acceptedTasks s.tasks tracker) := by
  have hclosed : state.closed = true := by
    rw [h.closed, hsd]
    rfl
  have honce := h.once
  rw [ChildTaskTracker.all, (h.empty hclosed).1, (h.empty hclosed).2, hsd] at honce
  simpa using honce

/-- The first drain leaves to the second only what it has aborted. -/
theorem finalDrain (h : TrackerInv s.now s.tasks tracker state) (hsd : state.shutdown = some sd)
    (hbegun : sd.finalBegun = true) : FinalDrain s tracker sd := by
  have hinv := h.shutdown sd hsd
  rcases hinv.rest hbegun with ⟨htimed, hrest⟩
  have haborted : (sd.joinedIn false ++ sd.aborted).Perm (acceptedTasks s.tasks tracker) := by
    refine List.Perm.trans (hrest.symm.append_left _) ?_
    have htaken := h.taken_perm hsd
    rw [Shutdown.taken] at htaken
    simpa only [List.append_assoc] using htaken
  rcases Option.isSome_iff_exists.mp htimed with ⟨abortAt, habort⟩
  rcases hinv.abortAt abortAt habort with ⟨first, second, hle, hnow, heq⟩
  refine ⟨haborted, abortAt, first, second, habort, hle, hnow, heq, ?_⟩
  intro task hmem finished hfinished hearly
  -- an aborted task had not ended by the abort time
  have hnot : task ∉ sd.aborted := by
    intro hmem
    rcases hinv.aborted task hmem with ⟨other, hother, hlate⟩
    obtain rfl : abortAt = other := Option.some.inj (habort.symm.trans hother)
    exact absurd (hlate.2 finished hfinished) (not_le.mpr hearly)
  exact ⟨(List.mem_append.mp (haborted.symm.subset hmem)).resolve_right hnot, hnot⟩

/-- A shutdown that has returned has joined or handed over each task. -/
theorem shutDown (h : TrackerInv s.now s.tasks tracker state) (hsd : state.shutdown = some sd)
    {completed : Bool} (hreturned : sd.stage = .returned completed) :
    ShutDown s tracker sd completed := by
  have hinv := h.shutdown sd hsd
  have hknown := hinv.stage
  simp only [Shutdown.StageInv, hreturned] at hknown
  have honce : (sd.joined.map Join.task ++ sd.handed).Perm (acceptedTasks s.tasks tracker) := by
    have htaken := h.taken_perm hsd
    rw [Shutdown.taken, Shutdown.held, hreturned, List.append_nil] at htaken
    exact ((joined_perm sd).symm.append_right _).trans htaken
  have hnodup := honce.nodup_iff.mpr (nodup_acceptedTasks s.tasks tracker)
  refine ⟨honce, hnodup, fun join hmem => (hinv.joins join hmem).2, ?_, ?_⟩
  · -- joined and handed over exclude each other, so the result is about the joins
    rw [hknown.1]
    constructor
    · intro hnone task hmem
      have hall := honce.symm.subset hmem
      rw [hnone, List.append_nil] at hall
      exact hall
    · intro hall
      rw [List.eq_nil_iff_forall_not_mem]
      intro task hmem
      have haccepted := honce.subset (List.mem_append_right _ hmem)
      exact (List.nodup_append.mp hnodup).2.2 task (hall task haccepted) task hmem rfl
  · -- a task that was handed over had not ended by the deadline
    intro task hmem finished hfinished hearly
    rcases List.mem_append.mp (honce.symm.subset hmem) with hjoined | hhanded
    · exact hjoined
    · exact absurd ((hknown.2 task hhanded).2 finished hfinished) (not_le.mpr hearly)

end TrackerInv

/-- In every run: the count is that of the tasks whose body has not ended. Once a shutdown has
closed a tracker a spawn starts nothing; when its final drain begins, all that is left has been
aborted; and when it returns, each task is joined or with the reaper, and the result says which. -/
theorem tracker_shutdown {now : Instant limit} {trace : List (ChildTaskLabel τ limit)}
    {s : ChildTasks τ limit} (hrun : (childTasks τ limit).run { now } trace = some s) :
    s.active = (s.tasks.filter fun task => !task.bodyEnded).length ∧
    ∀ tracker sd, (s.trackers tracker).shutdown = some sd →
      s.spawn tracker = (none, s) ∧
      (sd.finalBegun = true → FinalDrain s tracker sd) ∧
      ∀ completed, sd.stage = .returned completed → ShutDown s tracker sd completed := by
  have hstep : ∀ (before : ChildTasks τ limit) label after,
      (childTasks τ limit).step before label = some after → before.Inv → after.Inv := by
    intro before label after hstep hbefore
    exact ChildTasks.step_inv hstep hbefore
  have hinv : s.Inv := Machine.run_invariant hstep hrun (ChildTasks.start_inv now)
  constructor
  · rw [hinv.active, List.countP_eq_length_filter]
  · intro tracker sd hsd
    have hstate := hinv.trackers tracker
    refine ⟨?_, hstate.finalDrain hsd, fun completed hreturned => hstate.shutDown hsd hreturned⟩
    apply ChildTasks.spawn_of_closed
    rw [hstate.closed, hsd]
    rfl

end Inv

/-! ## Two runs -/

/-- An instant of a clock of one second. -/
def afterMillis (millis : Nat) : Instant (10 ^ 9) :=
  ⟨min (10 ^ 9) (millis * 10 ^ 6), Nat.min_le_left _ _⟩

/-- One task ends in time. The other is aborted, does not end and is handed over. -/
def handOver : List (ChildTaskLabel Bool (10 ^ 9)) :=
  [.spawn true, .push true, .spawn false, .spawn true, .push false, .push true, .bodyEnds 0,
    .finishes 0, .close true ⟨afterMillis 100, 10 ^ 8⟩, .spawn true,
    .shutdown true (.readAbortAt (afterMillis 0)), .shutdown true .joins,
    .advance (afterMillis 51), .shutdown true .elapses, .shutdown true .proceeds,
    .shutdown true .proceeds, .shutdown true .proceeds, .advance (afterMillis 100),
    .shutdown true .elapses, .shutdown true .proceeds, .shutdown true .proceeds,
    .shutdown true .proceeds]

/-- The run in which one task is handed over. -/
theorem tracker_shutdown_handOver :
    ∃ s sd, (childTasks Bool (10 ^ 9)).run { now := afterMillis 0 } handOver = some s ∧
      (s.trackers true).shutdown = some sd ∧ sd.handed = [2] ∧ s.active = 2 ∧
      FinalDrain s true sd ∧ ShutDown s true sd false := by
  let sd : Shutdown (10 ^ 9) :=
    { deadline := ⟨afterMillis 100, 10 ^ 8⟩
      stage := .returned false
      abortAt := some (afterMillis 50)
      joined := [⟨0, afterMillis 0, false⟩]
      aborted := [2]
      handed := [2] }
  have hresult : ((childTasks Bool (10 ^ 9)).run { now := afterMillis 0 } handOver).map
      (fun s => ((s.trackers true).shutdown, s.active)) = some (some sd, 2) := by
    decide
  rcases Option.map_eq_some_iff.mp hresult with ⟨s, hrun, hfields⟩
  have hsd : (s.trackers true).shutdown = some sd := congrArg Prod.fst hfields
  have hall := (tracker_shutdown hrun).2 true sd hsd
  exact ⟨s, sd, hrun, hsd, rfl, congrArg Prod.snd hfields, hall.2.1 rfl, hall.2.2 false rfl⟩

/-- A task that ends after the abort time and the deadline, before the first wait for it. -/
def lateJoin : List (ChildTaskLabel Unit (10 ^ 9)) :=
  [.spawn (), .push (), .close () ⟨afterMillis 100, 10 ^ 8⟩,
    .shutdown () (.readAbortAt (afterMillis 0)), .advance (afterMillis 101), .bodyEnds 0,
    .finishes 0, .shutdown () .joins, .shutdown () .proceeds, .shutdown () .proceeds,
    .shutdown () .proceeds, .shutdown () .proceeds]

/-- It is joined all the same: never aborted, after the deadline, and with the result `true`. -/
theorem late_join_completes :
    ∃ s sd, (childTasks Unit (10 ^ 9)).run { now := afterMillis 0 } lateJoin = some s ∧
      (s.trackers ()).shutdown = some sd ∧ sd.stage = .returned true ∧
      acceptedTasks s.tasks () = [0] ∧ sd.abortAt = some (afterMillis 50) ∧
      finishedAt s.tasks 0 = some (afterMillis 101) ∧ sd.aborted = [] ∧
      sd.deadline.at_ = afterMillis 100 ∧ sd.joined = [⟨0, afterMillis 101, false⟩] := by
  let sd : Shutdown (10 ^ 9) :=
    { deadline := ⟨afterMillis 100, 10 ^ 8⟩
      stage := .returned true
      abortAt := some (afterMillis 50)
      joined := [⟨0, afterMillis 101, false⟩] }
  have hresult : ((childTasks Unit (10 ^ 9)).run { now := afterMillis 0 } lateJoin).map
      (fun s => ((s.trackers ()).shutdown, s.tasks)) =
        some (some sd, [⟨(), true, some (afterMillis 101)⟩]) := by
    decide
  rcases Option.map_eq_some_iff.mp hresult with ⟨s, hrun, hfields⟩
  have hsd : (s.trackers ()).shutdown = some sd := congrArg Prod.fst hfields
  have htasks : s.tasks = [⟨(), true, some (afterMillis 101)⟩] := congrArg Prod.snd hfields
  refine ⟨s, sd, hrun, hsd, rfl, ?_, rfl, ?_, rfl, rfl, rfl⟩
  · rw [htasks]
    rfl
  · rw [htasks]
    rfl

end Rssh
