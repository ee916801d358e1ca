import Mathlib.Data.List.Perm.Basic
import Mathlib.Data.List.Range
import Rssh.Lib.Clock

/-!
# Accept loops

A loop that accepts connections, spawns a task in a join set for each of them and joins those that
have ended, until it is told to stop. Then it may wait for the tasks up to some time; it aborts what
is left, waits for a grace period and gives the rest away.

The loop owns neither the clock nor the request nor the tasks: its step reads them in an
`AcceptWorld`. A round of its `select` looks for the request before anything else, so the request
can come between that look and an accept.

* `Inv.step` and `Inv.evolves` are the rules for a step of the loop and for one of its world.
* `Inv.drop` is the one for a loop whose future is dropped.
* `Steps.rank_lt` and `ended_or_waits` are the ones for its end.
-/

variable {κ : Type} {limit : Nat}

/-- What a step of the loop reads: the time, the request to stop, and when tasks have ended. -/
structure AcceptWorld (κ : Type) (limit : Nat) where
  now : Instant limit
  request : Option κ
  ended : Nat → Option (Instant limit)

/-- How a loop ends: whether a failed accept ends it as a request does or at once, up to when it
waits for its tasks before it aborts them, and for how long after that. -/
structure AcceptPolicy (κ : Type) (limit : Nat) where
  breaks : Bool
  drainUpTo : κ → Option (Instant limit)
  grace : Nat

/-- Where the loop is. Without a `stop` it is a failed accept that has ended it. -/
inductive AcceptStage (κ : Type) (limit : Nat) where
  | selecting
  | polled
  | draining (stop : κ) (upTo : Instant limit)
  | aborting (stop : Option κ)
  | fallback (stop : Option κ) (upTo : Instant limit)
  /-- The set was empty before anything was aborted. -/
  | drained (stop : κ)
  | closed (stop : Option κ)
  | failed
deriving DecidableEq

/-- The loop and its join set. The tasks are numbered as they are spawned; `late` counts those that
were accepted after the request. -/
structure AcceptLoop (κ : Type) (limit : Nat) where
  stage : AcceptStage κ limit := .selecting
  spawned : Nat := 0
  live : List Nat := []
  joined : List Nat := []
  aborted : List Nat := []
  handed : List Nat := []
  detached : List Nat := []
  late : Nat := 0
deriving DecidableEq

inductive AcceptLabel (limit : Nat) where
  | polls
  | stops
  | accepts
  | acceptFails
  | pends
  | joins (task : Nat)
  | elapses
  | aborts (first : Instant limit)
  | finishes
deriving DecidableEq

/-- The steps that look for a connection. -/
def AcceptLabel.listens : AcceptLabel limit → Bool
  | .polls | .accepts | .acceptFails => true
  | .stops | .pends | .joins _ | .elapses | .aborts _ | .finishes => false

namespace AcceptLoop

/-- A time has come, and the task had not ended before it. -/
def Late (w : AcceptWorld κ limit) (upTo : Instant limit) (task : Nat) : Prop :=
  upTo ≤ w.now ∧ ∀ ended, w.ended task = some ended → upTo ≤ ended

instance (w : AcceptWorld κ limit) (upTo : Instant limit) (task : Nat) :
    Decidable (Late w upTo task) :=
  match h : w.ended task with
  | none => decidable_of_iff (upTo ≤ w.now) (by simp [Late, h])
  | some ended => decidable_of_iff (upTo ≤ w.now ∧ upTo ≤ ended) (by simp [Late, h])

def join (s : AcceptLoop κ limit) (task : Nat) (stage : AcceptStage κ limit) : AcceptLoop κ limit :=
  { s with stage, live := s.live.erase task, joined := s.joined ++ [task] }

/-- One step of the loop. A wait for the set sees a task that has ended also when its time is over;
it is over only if the time is, and none of the tasks has ended before. -/
def step (P : AcceptPolicy κ limit) (w : AcceptWorld κ limit) (s : AcceptLoop κ limit) :
    AcceptLabel limit → Option (AcceptLoop κ limit)
  | .polls =>
      match s.stage, w.request with
      | .selecting, none => some { s with stage := .polled }
      | _, _ => none
  | .stops =>
      match s.stage, w.request with
      | .selecting, some stop =>
          match P.drainUpTo stop with
          | some upTo => some { s with stage := .draining stop upTo }
          | none => some { s with stage := .aborting (some stop) }
      | _, _ => none
  | .accepts =>
      match s.stage with
      | .polled =>
          some
            { s with
              stage := .selecting
              spawned := s.spawned + 1
              live := s.live ++ [s.spawned]
              late := if w.request.isSome then s.late + 1 else s.late }
      | _ => none
  | .acceptFails =>
      match s.stage with
      | .polled =>
          if P.breaks then some { s with stage := .aborting none }
          -- the drop of the set aborts its tasks, which nothing joins
          else some { s with stage := .failed, live := [], aborted := s.live, detached := s.live }
      | _ => none
  | .pends =>
      match s.stage with
      | .polled => some { s with stage := .selecting }
      | _ => none
  | .joins task =>
      if task ∈ s.live ∧ (w.ended task).isSome then
        match s.stage with
        | .polled => some (s.join task .selecting)
        | .draining stop upTo => some (s.join task (.draining stop upTo))
        | .fallback stop upTo => some (s.join task (.fallback stop upTo))
        | _ => none
      else none
  | .elapses =>
      match s.stage with
      | .draining stop upTo =>
          if s.live ≠ [] ∧ ∀ task ∈ s.live, Late w upTo task then
            some { s with stage := .aborting (some stop) }
          else none
      | .fallback stop upTo =>
          if s.live ≠ [] ∧ ∀ task ∈ s.live, Late w upTo task then
            some { s with stage := .closed stop, live := [], handed := s.live }
          else none
      | _ => none
  | .aborts first =>
      match s.stage with
      | .aborting stop =>
          if first ≤ w.now then
            let upTo := (first.checkedAdd P.grace).getD w.now
            some { s with stage := .fallback stop upTo, aborted := s.live }
          else none
      | _ => none
  | .finishes =>
      match s.stage with
      | .draining stop _ => if s.live = [] then some { s with stage := .drained stop } else none
      | .fallback stop _ => if s.live = [] then some { s with stage := .closed stop } else none
      | _ => none

/-- The future of the loop is dropped at a wait: the drop of the set aborts its tasks, which nothing
joins. -/
def drop (s : AcceptLoop κ limit) : AcceptLoop κ limit :=
  { s with live := [], aborted := s.aborted ∪ s.live, detached := s.detached ++ s.live }

/-- The loop has returned. -/
def hasEnded (s : AcceptLoop κ limit) : Bool :=
  match s.stage with
  | .drained _ | .closed _ | .failed => true
  | _ => false

/-! ## What a step can do -/

variable {P : AcceptPolicy κ limit} {w w' : AcceptWorld κ limit} {s s' : AcceptLoop κ limit}

inductive Steps (P : AcceptPolicy κ limit) (w : AcceptWorld κ limit) (s : AcceptLoop κ limit) :
    AcceptLabel limit → AcceptLoop κ limit → Prop where
  | polls (hstage : s.stage = .selecting) (hrequest : w.request = none) :
      Steps P w s .polls { s with stage := .polled }
  | drains (hstage : s.stage = .selecting) {stop : κ} {upTo : Instant limit}
      (hrequest : w.request = some stop) (hupTo : P.drainUpTo stop = some upTo) :
      Steps P w s .stops { s with stage := .draining stop upTo }
  | stops (hstage : s.stage = .selecting) {stop : κ} (hrequest : w.request = some stop)
      (hupTo : P.drainUpTo stop = none) :
      Steps P w s .stops { s with stage := .aborting (some stop) }
  | accepts (hstage : s.stage = .polled) :
      Steps P w s .accepts
        { s with
          stage := .selecting
          spawned := s.spawned + 1
          live := s.live ++ [s.spawned]
          late := if w.request.isSome then s.late + 1 else s.late }
  | breaks (hstage : s.stage = .polled) (hbreaks : P.breaks = true) :
      Steps P w s .acceptFails { s with stage := .aborting none }
  | fails (hstage : s.stage = .polled) (hbreaks : P.breaks = false) :
      Steps P w s .acceptFails
        { s with stage := .failed, live := [], aborted := s.live, detached := s.live }
  | pends (hstage : s.stage = .polled) : Steps P w s .pends { s with stage := .selecting }
  | joins {task : Nat} (hlive : task ∈ s.live) (hended : (w.ended task).isSome = true)
      (hstage : s.stage = .polled) : Steps P w s (.joins task) (s.join task .selecting)
  | drainJoins {task : Nat} (hlive : task ∈ s.live) (hended : (w.ended task).isSome = true)
      {stop : κ} {upTo : Instant limit} (hstage : s.stage = .draining stop upTo) :
      Steps P w s (.joins task) (s.join task (.draining stop upTo))
  | fallbackJoins {task : Nat} (hlive : task ∈ s.live) (hended : (w.ended task).isSome = true)
      {stop : Option κ} {upTo : Instant limit} (hstage : s.stage = .fallback stop upTo) :
      Steps P w s (.joins task) (s.join task (.fallback stop upTo))
  | elapses {stop : κ} {upTo : Instant limit} (hstage : s.stage = .draining stop upTo)
      (hlive : s.live ≠ []) (hlate : ∀ task ∈ s.live, Late w upTo task) :
      Steps P w s .elapses { s with stage := .aborting (some stop) }
  | hands {stop : Option κ} {upTo : Instant limit} (hstage : s.stage = .fallback stop upTo)
      (hlive : s.live ≠ []) (hlate : ∀ task ∈ s.live, Late w upTo task) :
      Steps P w s .elapses { s with stage := .closed stop, live := [], handed := s.live }
  | aborts {stop : Option κ} (hstage : s.stage = .aborting stop) {first : Instant limit}
      (hfirst : first ≤ w.now) :
      Steps P w s (.aborts first)
        { s with
          stage := .fallback stop ((first.checkedAdd P.grace).getD w.now)
          aborted := s.live }
  | drained {stop : κ} {upTo : Instant limit} (hstage : s.stage = .draining stop upTo)
      (hlive : s.live = []) : Steps P w s .finishes { s with stage := .drained stop }
  | closes {stop : Option κ} {upTo : Instant limit} (hstage : s.stage = .fallback stop upTo)
      (hlive : s.live = []) : Steps P w s .finishes { s with stage := .closed stop }

/-- `Steps` has every step of the loop. -/
theorem steps_of_step {label : AcceptLabel limit} (h : s.step P w label = some s') :
    Steps P w s label s' := by
  cases label with
  | polls =>
      simp only [step] at h
      split at h
      · rename_i hstage hrequest
        obtain rfl := Option.some.inj h
        exact .polls hstage hrequest
      · cases h
  | stops =>
      -- the drain begins, with a time if the policy gives one
      simp only [step] at h
      split at h
      · rename_i stop hstage hrequest
        split at h
        · rename_i upTo hupTo
          obtain rfl := Option.some.inj h
          exact .drains hstage hrequest hupTo
        · rename_i hupTo
          obtain rfl := Option.some.inj h
          exact .stops hstage hrequest hupTo
      · cases h
  | accepts =>
      simp only [step] at h
      split at h
      · rename_i hstage
        obtain rfl := Option.some.inj h
        exact .accepts hstage
      · cases h
  | acceptFails =>
      -- the policy says whether an error ends the loop
      simp only [step] at h
      split at h
      · rename_i hstage
        split_ifs at h with hbreaks
        · obtain rfl := Option.some.inj h
          exact .breaks hstage hbreaks
        · obtain rfl := Option.some.inj h
          exact .fails hstage (Bool.eq_false_iff.mpr hbreaks)
      · cases h
  | pends =>
      simp only [step] at h
      split at h
      · rename_i hstage
        obtain rfl := Option.some.inj h
        exact .pends hstage
      · cases h
  | joins task =>
      simp only [step] at h
      split_ifs at h with hguard
      split at h
      · rename_i hstage
        obtain rfl := Option.some.inj h
        exact .joins hguard.1 hguard.2 hstage
      · rename_i stop upTo hstage
        obtain rfl := Option.some.inj h
        exact .drainJoins hguard.1 hguard.2 hstage
      · rename_i stop upTo hstage
        obtain rfl := Option.some.inj h
        exact .fallbackJoins hguard.1 hguard.2 hstage
      · cases h
  | elapses =>
      simp only [step] at h
      split at h
      · rename_i stop upTo hstage
        split_ifs at h with hguard
        obtain rfl := Option.some.inj h
        exact .elapses hstage hguard.1 hguard.2
      · rename_i stop upTo hstage
        split_ifs at h with hguard
        obtain rfl := Option.some.inj h
        exact .hands hstage hguard.1 hguard.2
      · cases h
  | aborts first =>
      simp only [step] at h
      split at h
      · rename_i stop hstage
        split_ifs at h with hfirst
        obtain rfl := Option.some.inj h
        exact .aborts hstage hfirst
      · cases h
  | finishes =>
      simp only [step] at h
      split at h
      · rename_i stop upTo hstage
        split_ifs at h with hlive
        obtain rfl := Option.some.inj h
        exact .drained hstage hlive
      · rename_i stop upTo hstage
        split_ifs at h with hlive
        obtain rfl := Option.some.inj h
        exact .closes hstage hlive
      · cases h

/-! ## What is kept -/

/-- Why the loop aborts its tasks: a failed accept, or a request. If the request gave a time to wait
up to, then there were tasks left, and they were late. -/
structure Overdue (P : AcceptPolicy κ limit) (w : AcceptWorld κ limit) (stop : Option κ)
    (tasks : List Nat) : Prop where
  broken : stop = none → P.breaks = true
  late : ∀ request upTo, stop = some request → P.drainUpTo request = some upTo →
    tasks ≠ [] ∧ ∀ task ∈ tasks, Late w upTo task

/-- What is known at a stage of the tasks that the loop has not joined. -/
def StageInv (P : AcceptPolicy κ limit) (w : AcceptWorld κ limit) (s : AcceptLoop κ limit) : Prop :=
  match s.stage with
  | .selecting | .polled => s.aborted = [] ∧ s.handed = [] ∧ s.detached = []
  | .draining stop upTo =>
      (s.aborted = [] ∧ s.handed = [] ∧ s.detached = []) ∧ P.drainUpTo stop = some upTo
  | .aborting stop =>
      (s.aborted = [] ∧ s.handed = [] ∧ s.detached = []) ∧ Overdue P w stop s.live
  | .fallback stop _ =>
      (s.handed = [] ∧ s.detached = []) ∧ Overdue P w stop s.aborted ∧ s.live ⊆ s.aborted
  | .drained _ => s.live = [] ∧ s.aborted = [] ∧ s.handed = [] ∧ s.detached = []
  | .closed stop =>
      s.live = [] ∧ s.detached = [] ∧ Overdue P w stop s.aborted ∧ s.handed ⊆ s.aborted
  | .failed => P.breaks = false ∧ s.live = [] ∧ s.handed = [] ∧ s.aborted = s.detached

structure Inv (P : AcceptPolicy κ limit) (w : AcceptWorld κ limit) (s : AcceptLoop κ limit) :
    Prop where
  /-- Each task is in one place. -/
  places : (s.joined ++ s.live ++ s.handed ++ s.detached).Perm (List.range s.spawned)
  joins : ∀ task ∈ s.joined, (w.ended task).isSome = true
  late : s.late = 0 ∨ s.late = 1 ∧ w.request.isSome = true ∧ s.stage ≠ .polled
  stage : StageInv P w s

theorem start_inv (P : AcceptPolicy κ limit) (w : AcceptWorld κ limit) : Inv P w {} := by
  refine ⟨List.Perm.refl _, ?_, .inl rfl, rfl, rfl, rfl⟩
  intro task hmem
  cases hmem

theorem Inv.late_le (h : Inv P w s) : s.late ≤ 1 := by
  rcases h.late with hlate | hlate
  · omega
  · omega

/-- A task that is joined changes its place. -/
theorem join_places {task : Nat} (hlive : task ∈ s.live) (stage : AcceptStage κ limit) :
    ((s.join task stage).joined ++ (s.join task stage).live ++ s.handed ++ s.detached).Perm
      (s.joined ++ s.live ++ s.handed ++ s.detached) := by
  apply List.Perm.append_right
  apply List.Perm.append_right
  show (s.joined ++ [task] ++ s.live.erase task).Perm (s.joined ++ s.live)
  rw [List.append_assoc]
  apply List.Perm.append_left
  exact (List.perm_cons_erase hlive).symm

/-- After the join of an ended task all joined tasks have ended. -/
theorem Inv.join_joins (h : Inv P w s) {task : Nat} (hended : (w.ended task).isSome = true)
    (stage : AcceptStage κ limit) : ∀ other ∈ (s.join task stage).joined,
      (w.ended other).isSome = true := by
  intro other hmem
  rcases List.mem_append.mp hmem with hmem | hmem
  · exact h.joins other hmem
  · rw [List.mem_singleton.mp hmem]
    exact hended

/-- Each step of the loop keeps the invariant. -/
theorem Inv.step (h : Inv P w s) {label : AcceptLabel limit} (hstep : Steps P w s label s') :
    Inv P w s' := by
  have hplaces := h.places
  have hlate := h.late
  have hknown := h.stage
  cases hstep with
  | polls hstage hrequest =>
      simp only [StageInv, hstage] at hknown
      refine ⟨hplaces, h.joins, ?_, hknown⟩
      -- a request is never taken back
      rw [hrequest] at hlate
      simpa using hlate
  | drains hstage hrequest hupTo =>
      simp only [StageInv, hstage] at hknown
      refine ⟨hplaces, h.joins, ?_, hknown, hupTo⟩
      simpa [hstage] using hlate
  | stops hstage hrequest hupTo =>
      simp only [StageInv, hstage] at hknown
      refine ⟨hplaces, h.joins, ?_, hknown, ?_, ?_⟩
      · simpa [hstage] using hlate
      · intro hnone
        cases hnone
      · intro request upTo hsome hnone
        obtain rfl := Option.some.inj hsome
        rw [hupTo] at hnone
        cases hnone
  | accepts hstage =>
      simp only [StageInv, hstage] at hknown
      rcases hknown with ⟨haborted, hhanded, hdetached⟩
      refine ⟨?_, h.joins, ?_, haborted, hhanded, hdetached⟩
      · show (s.joined ++ (s.live ++ [s.spawned]) ++ s.handed ++ s.detached).Perm _
        rw [hhanded, hdetached, List.append_nil, List.append_nil] at hplaces ⊢
        rw [List.range_succ, ← List.append_assoc]
        exact hplaces.append_right [s.spawned]
      · have hzero : s.late = 0 := by simpa [hstage] using hlate
        cases hrequest : w.request with
        | none => exact .inl (by simp [hzero])
        | some request => exact .inr ⟨by simp [hzero], rfl, by simp⟩
  | breaks hstage hbreaks =>
      simp only [StageInv, hstage] at hknown
      refine ⟨hplaces, h.joins, ?_, hknown, fun _ => hbreaks, ?_⟩
      · exact .inl (by simpa [hstage] using hlate)
      · intro request upTo hsome
        cases hsome
  | fails hstage hbreaks =>
      simp only [StageInv, hstage] at hknown
      rcases hknown with ⟨haborted, hhanded, hdetached⟩
      refine ⟨?_, h.joins, ?_, hbreaks, rfl, hhanded, rfl⟩
      · show (s.joined ++ [] ++ s.handed ++ s.live).Perm _
        rw [hhanded, hdetached, List.append_nil, List.append_nil] at hplaces
        rwa [hhanded, List.append_nil, List.append_nil]
      · exact .inl (by simpa [hstage] using hlate)
  | pends hstage =>
      simp only [StageInv, hstage] at hknown
      exact ⟨hplaces, h.joins, .inl (by simpa [hstage] using hlate), hknown⟩
  | joins hlive hended hstage =>
      simp only [StageInv, hstage] at hknown
      refine ⟨(join_places hlive _).trans hplaces, h.join_joins hended _, ?_, hknown⟩
      exact .inl (by simpa [AcceptLoop.join, hstage] using hlate)
  | drainJoins hlive hended hstage =>
      simp only [StageInv, hstage] at hknown
      refine ⟨(join_places hlive _).trans hplaces, h.join_joins hended _, ?_, hknown⟩
      simpa [AcceptLoop.join, hstage] using hlate
  | fallbackJoins hlive hended hstage =>
      simp only [StageInv, hstage] at hknown
      rcases hknown with ⟨hnone, hoverdue, hsubset⟩
      refine ⟨(join_places hlive _).trans hplaces, h.join_joins hended _, ?_, hnone, hoverdue, ?_⟩
      · simpa [AcceptLoop.join, hstage] using hlate
      · exact List.Subset.trans (List.erase_subset) hsubset
  | elapses hstage hlive hoverdue =>
      simp only [StageInv, hstage] at hknown
      refine ⟨hplaces, h.joins, ?_, hknown.1, ?_, ?_⟩
      · simpa [hstage] using hlate
      · intro hnone
        cases hnone
      · intro request upTo hsome hupTo
        obtain rfl := Option.some.inj hsome
        obtain rfl := Option.some.inj (hknown.2.symm.trans hupTo)
        exact ⟨hlive, hoverdue⟩
  | hands hstage hlive hoverdue =>
      simp only [StageInv, hstage] at hknown
      rcases hknown with ⟨⟨hhanded, hdetached⟩, haborted, hsubset⟩
      refine ⟨?_, h.joins, ?_, rfl, hdetached, haborted, hsubset⟩
      · show (s.joined ++ [] ++ s.live ++ s.detached).Perm _
        rw [hhanded, List.append_nil] at hplaces
        rwa [List.append_nil]
      · simpa [hstage] using hlate
  | aborts hstage hfirst =>
      simp only [StageInv, hstage] at hknown
      refine ⟨hplaces, h.joins, ?_, hknown.1.2, hknown.2, List.Subset.refl _⟩
      simpa [hstage] using hlate
  | drained hstage hlive =>
      simp only [StageInv, hstage] at hknown
      refine ⟨hplaces, h.joins, ?_, hlive, hknown.1⟩
      simpa [hstage] using hlate
  | closes hstage hlive =>
      simp only [StageInv, hstage] at hknown
      rcases hknown with ⟨⟨hhanded, hdetached⟩, haborted, -⟩
      refine ⟨hplaces, h.joins, ?_, hlive, hdetached, haborted, ?_⟩
      · simpa [hstage] using hlate
      · show s.handed ⊆ s.aborted
        rw [hhanded]
        exact List.nil_subset _

/-! ## The world goes on -/

/-- Later, a request is still there, and so is what has ended; other tasks end at that time. -/
structure Evolves (w w' : AcceptWorld κ limit) : Prop where
  le : w.now ≤ w'.now
  request : w.request.isSome = true → w'.request.isSome = true
  ended : ∀ task, w'.ended task = w.ended task ∨
    w.ended task = none ∧ w'.ended task = some w'.now

/-- A task that was late stays late. -/
theorem Late.evolves {upTo : Instant limit} {task : Nat} (h : Late w upTo task)
    (hworld : Evolves w w') : Late w' upTo task := by
  refine ⟨h.1.trans hworld.le, ?_⟩
  intro ended hended
  rcases hworld.ended task with hsame | ⟨-, hnew⟩
  · exact h.2 ended (hsame.symm.trans hended)
  · obtain rfl := Option.some.inj (hnew.symm.trans hended)
    exact h.1.trans hworld.le

/-- The tasks that were late stay late. -/
theorem Overdue.evolves {stop : Option κ} {tasks : List Nat} (h : Overdue P w stop tasks)
    (hworld : Evolves w w') : Overdue P w' stop tasks := by
  refine ⟨h.broken, ?_⟩
  intro request upTo hsome hupTo
  rcases h.late request upTo hsome hupTo with ⟨hne, hlate⟩
  exact ⟨hne, fun task hmem => (hlate task hmem).evolves hworld⟩

/-- A task that has ended does not run again. -/
theorem Evolves.isSome (hworld : Evolves w w') {task : Nat}
    (hended : (w.ended task).isSome = true) : (w'.ended task).isSome = true := by
  rcases hworld.ended task with hsame | ⟨hnone, -⟩
  · rwa [hsame]
  · rw [hnone] at hended
    cases hended

/-- The invariant stays true while the world goes on. -/
theorem Inv.evolves (h : Inv P w s) (hworld : Evolves w w') : Inv P w' s := by
  have hknown := h.stage
  refine ⟨h.places, fun task hmem => hworld.isSome (h.joins task hmem), ?_, ?_⟩
  · rcases h.late with hzero | ⟨hone, hrequest, hstage⟩
    · exact .inl hzero
    · exact .inr ⟨hone, hworld.request hrequest, hstage⟩
  · unfold StageInv at *
    split at hknown
    · exact hknown
    · exact hknown
    · exact hknown
    · exact ⟨hknown.1, hknown.2.evolves hworld⟩
    · exact ⟨hknown.1, hknown.2.1.evolves hworld, hknown.2.2⟩
    · exact hknown
    · exact ⟨hknown.1, hknown.2.1, hknown.2.2.1.evolves hworld, hknown.2.2.2⟩
    · exact hknown

/-! ## A loop that is dropped -/

/-- What is known of a loop that was dropped: no task is left in its set, and each that it has not
joined was aborted. -/
structure Dropped (s : AcceptLoop κ limit) : Prop where
  live : s.live = []
  places : (s.joined ++ s.live ++ s.handed ++ s.detached).Perm (List.range s.spawned)
  aborted : s.handed ++ s.detached ⊆ s.aborted
  late : s.late ≤ 1

/-- At each stage the tasks that were given away were aborted before. -/
theorem Inv.given_subset (h : Inv P w s) : s.handed ++ s.detached ⊆ s.aborted := by
  have hknown := h.stage
  cases hstage : s.stage with
  | selecting | polled =>
      -- nothing is given away before the drain
      simp only [StageInv, hstage] at hknown
      simp [hknown.2.1, hknown.2.2]
  | draining stop upTo =>
      simp only [StageInv, hstage] at hknown
      simp [hknown.1.2.1, hknown.1.2.2]
  | aborting stop =>
      simp only [StageInv, hstage] at hknown
      simp [hknown.1.2.1, hknown.1.2.2]
  | fallback stop upTo =>
      -- the aborted ones are joined or still live
      simp only [StageInv, hstage] at hknown
      simp [hknown.1.1, hknown.1.2]
  | drained stop =>
      simp only [StageInv, hstage] at hknown
      simp [hknown.2.2.1, hknown.2.2.2]
  | closed stop =>
      simp only [StageInv, hstage] at hknown
      rw [hknown.2.1, List.append_nil]
      exact hknown.2.2.2
  | failed =>
      simp only [StageInv, hstage] at hknown
      rw [hknown.2.2.1, hknown.2.2.2]
      exact List.Subset.refl _

theorem Inv.drop (h : Inv P w s) : s.drop.Dropped := by
  refine ⟨rfl, ?_, ?_, h.late_le⟩
  · -- the live ones become detached
    have hmoved : (s.joined ++ [] ++ s.handed ++ (s.detached ++ s.live)).Perm
        (s.joined ++ s.live ++ s.handed ++ s.detached) := by
      rw [List.append_nil, List.append_assoc, List.append_assoc, List.append_assoc]
      apply List.Perm.append_left
      rw [← List.append_assoc]
      exact List.perm_append_comm
    exact hmoved.trans h.places
  · intro task hmem
    show task ∈ s.aborted ∪ s.live
    rw [List.mem_union_iff]
    have hwhere : task ∈ s.handed ++ s.detached ++ s.live := by
      rwa [List.append_assoc]
    rcases List.mem_append.mp hwhere with hgiven | hlive
    · exact .inl (h.given_subset hgiven)
    · exact .inr hlive

/-! ## The end of the loop -/

/-- The steps that the loop has left once a request is there. -/
def rank (s : AcceptLoop κ limit) : Nat :=
  match s.stage with
  | .polled => s.live.length + 7
  | .selecting => s.live.length + 5
  | .draining _ _ => s.live.length + 4
  | .aborting _ => s.live.length + 3
  | .fallback _ _ => s.live.length + 2
  | .drained _ | .closed _ | .failed => 0

theorem join_length {task : Nat} (hlive : task ∈ s.live) (stage : AcceptStage κ limit) :
    (s.join task stage).live.length + 1 = s.live.length := by
  have hpos := List.length_pos_of_mem hlive
  show (s.live.erase task).length + 1 = s.live.length
  rw [List.length_erase_of_mem hlive]
  omega

/-- Each step but the look for a request brings the loop closer to its end. -/
theorem Steps.rank_lt {label : AcceptLabel limit} (h : Steps P w s label s')
    (hlabel : label ≠ .polls) : s'.rank < s.rank := by
  cases h with
  | polls => exact absurd rfl hlabel
  | drains hstage => simp [rank, hstage]
  | stops hstage => simp [rank, hstage]
  | accepts hstage => simp [rank, hstage]
  | breaks hstage => simp [rank, hstage]
  | fails hstage => simp [rank, hstage]
  | pends hstage => simp [rank, hstage]
  | joins hlive hended hstage =>
      -- back to the start, with one task less
      have hlength := join_length hlive (.selecting : AcceptStage κ limit)
      simp only [rank, hstage]
      show (s.join _ .selecting).live.length + 5 < s.live.length + 7
      omega
  | @drainJoins task hlive hended stop upTo hstage =>
      have hlength := join_length hlive (.draining stop upTo)
      simp only [rank, hstage]
      show (s.join _ (.draining stop upTo)).live.length + 4 < s.live.length + 4
      omega
  | @fallbackJoins task hlive hended stop upTo hstage =>
      have hlength := join_length hlive (.fallback stop upTo)
      simp only [rank, hstage]
      show (s.join _ (.fallback stop upTo)).live.length + 2 < s.live.length + 2
      omega
  | elapses hstage => simp [rank, hstage]
  | hands hstage => simp [rank, hstage]
  | aborts hstage => simp [rank, hstage]
  | drained hstage => simp [rank, hstage]
  | closes hstage => simp [rank, hstage]

/-- Up to when it waits for its tasks. -/
def waitsUpTo (s : AcceptLoop κ limit) : Option (Instant limit) :=
  match s.stage with
  | .draining _ upTo | .fallback _ upTo => some upTo
  | _ => none

/-- A loop that waits and has no step left waits for tasks that have not ended. -/
theorem waiting_of_stuck {upTo : Instant limit}
    (hjoins : ∀ task ∈ s.live, ¬ (w.ended task).isSome = true)
    (helapses : ¬ ∀ task ∈ s.live, Late w upTo task) :
    w.now < upTo ∧ ∀ task ∈ s.live, w.ended task = none := by
  have hnone : ∀ task ∈ s.live, w.ended task = none := by
    intro task hmem
    exact Option.not_isSome_iff_eq_none.mp (hjoins task hmem)
  refine ⟨?_, hnone⟩
  by_contra hover
  apply helapses
  intro task hmem
  refine ⟨not_lt.mp hover, ?_⟩
  intro ended hended
  rw [hnone task hmem] at hended
  cases hended

/-- With a request there is always a step, up to the end of the loop or a wait whose time is not
over. -/
theorem ended_or_waits (hrequest : w.request.isSome = true)
    (hstuck : ∀ label, label.listens = false → s.step P w label = none) :
    s.hasEnded = true ∨ ∃ upTo, s.waitsUpTo = some upTo ∧ w.now < upTo ∧ s.live ≠ [] ∧
      ∀ task ∈ s.live, w.ended task = none := by
  have hstops := hstuck .stops rfl
  have hpends := hstuck .pends rfl
  have haborts := hstuck (.aborts w.now) rfl
  have hfinishes := hstuck .finishes rfl
  have helapses := hstuck .elapses rfl
  have hjoins := fun task => hstuck (.joins task) rfl
  rcases Option.isSome_iff_exists.mp hrequest with ⟨stop, hstop⟩
  cases hstage : s.stage with
  | selecting =>
      cases hupTo : P.drainUpTo stop with
      | none => simp [step, hstage, hstop, hupTo] at hstops
      | some upTo => simp [step, hstage, hstop, hupTo] at hstops
  -- a look is followed by a wait
  | polled => simp [step, hstage] at hpends
  | aborting => simp [step, hstage] at haborts
  | draining stop upTo =>
      -- the drain finishes without live tasks
      have hlive : s.live ≠ [] := by
        intro hempty
        simp [step, hstage, hempty] at hfinishes
      refine .inr ⟨upTo, by rw [waitsUpTo, hstage], ?_⟩
      have hwaiting : w.now < upTo ∧ ∀ task ∈ s.live, w.ended task = none := by
        apply waiting_of_stuck
        · intro task hmem hended
          have hnone := hjoins task
          rw [step, if_pos ⟨hmem, hended⟩, hstage] at hnone
          cases hnone
        · intro hlate
          simp only [step, hstage] at helapses
          rw [if_pos ⟨hlive, hlate⟩] at helapses
          cases helapses
      exact ⟨hwaiting.1, hlive, hwaiting.2⟩
  | fallback stop upTo =>
      have hlive : s.live ≠ [] := by
        intro hempty
        simp [step, hstage, hempty] at hfinishes
      refine .inr ⟨upTo, by rw [waitsUpTo, hstage], ?_⟩
      have hwaiting : w.now < upTo ∧ ∀ task ∈ s.live, w.ended task = none := by
        apply waiting_of_stuck
        · intro task hmem hended
          have hnone := hjoins task
          rw [step, if_pos ⟨hmem, hended⟩, hstage] at hnone
          cases hnone
        · intro hlate
          simp only [step, hstage] at helapses
          rw [if_pos ⟨hlive, hlate⟩] at helapses
          cases helapses
      exact ⟨hwaiting.1, hlive, hwaiting.2⟩
  | drained => exact .inl (by rw [hasEnded, hstage])
  | closed => exact .inl (by rw [hasEnded, hstage])
  | failed => exact .inl (by rw [hasEnded, hstage])

end AcceptLoop
