import Rssh.Process.Guard
import Rssh.Types

/-!
# The threads of the echo listener

The loopback echo server has one thread per connection. Between two accepts the listener joins the
threads that have finished; on shutdown it goes on doing so until the deadline and hands the threads
that are left to the process reaper.

The listener learns of a thread only by looking at it. Each look, and each reading of the clock, is
one tick; `finishedAt` is the first tick whose look finds the thread finished, so threads may finish
at any time and in any order, between two looks of one pass as well.

* `joinLoop_spec` is what one pass does: it looks at each thread once.
* `drain_once` is the drain, and `listener_once` the whole listener.
-/

namespace Rssh

variable {ε : Type}

/-! ## One connection -/

/-- An `EchoConnection`: its thread, and what its completion channel holds when that has finished.
The thread panics before it sends or has sent its result, an `io::Result` over `ε`. -/
structure EchoConnection (ε : Type) where
  finishedAt : Option Nat
  panicked : Bool
  completion : Option (Except ε Unit)
  sends : panicked = false → completion.isSome

/-- An `io::Error` of the listener: one of its own or one of `ε`. -/
inductive EchoError (ε : Type) where
  | other (message : String)
  | timedOut (message : String)
  | io (error : ε)
deriving DecidableEq, Repr

namespace EchoConnection

/-- `is_finished`, at a tick. -/
def isFinished (connection : EchoConnection ε) (tick : Nat) : Bool :=
  connection.finishedAt.any (· ≤ tick)

/-- `join_connection`. -/
def join (connection : EchoConnection ε) : Except (EchoError ε) Unit :=
  if connection.panicked then .error (.other "loopback echo connection worker panicked")
  else
    match connection.completion with
    | none =>
        .error (.other "loopback echo connection result missing: receiving on a closed channel")
    | some (.error error) => .error (.io error)
    | some (.ok ()) => .ok ()

/-- The thread neither panics nor reports an error. -/
def EndsWell (connection : EchoConnection ε) : Prop :=
  connection.panicked = false ∧ ∀ error, connection.completion ≠ some (.error error)

/-- A thread that has finished stays so. -/
theorem isFinished_mono {connection : EchoConnection ε} {tick later : Nat} (h : tick ≤ later)
    (hfinished : connection.isFinished tick = true) : connection.isFinished later = true := by
  unfold isFinished at *
  rw [Option.any_eq_true] at *
  rcases hfinished with ⟨first, hsome, hle⟩
  refine ⟨first, hsome, ?_⟩
  simp only [decide_eq_true_eq] at *
  omega

/-- A join succeeds exactly if the connection ended well. -/
theorem join_eq_ok_iff (connection : EchoConnection ε) :
    connection.join = .ok () ↔ connection.EndsWell := by
  unfold join EndsWell
  have hsends := connection.sends
  cases hpanicked : connection.panicked with
  | true => simp
  | false =>
      have hsome := hsends hpanicked
      rcases hcompletion : connection.completion with _ | error | _
      · rw [hcompletion] at hsome
        cases hsome
      · simp
      · simp

end EchoConnection

/-! ## The passes -/

/-- The connections of the listener at a tick, and the threads it has joined and deferred. -/
structure EchoThreads (ε : Type) where
  connections : List (EchoConnection ε) := []
  tick : Nat := 0
  joined : List (EchoConnection ε) := []
  deferred : List (EchoConnection ε) := []

/-- `get_or_insert` of the error of a result. -/
def keepFirst : Option ε → Except ε Unit → Option ε
  | some error, _ => some error
  | none, .error error => some error
  | none, .ok () => none

/-- `map_or(Ok(()), Err)`. -/
def firstErrorResult : Option ε → Except ε Unit
  | some error => .error error
  | none => .ok ()

namespace EchoThreads

/-- The loop of `join_finished_connections`. -/
def joinLoop (s : EchoThreads ε) (index : Nat) (firstError : Option (EchoError ε)) :
    Option (EchoError ε) × EchoThreads ε :=
  match h : s.connections[index]? with
  | none => (firstError, s)
  | some connection =>
      if connection.isFinished s.tick then
        -- another connection is at the index now, so the index stays
        joinLoop
          { s with
            connections := swapRemove s.connections index
            tick := s.tick + 1
            joined := s.joined ++ [connection] }
          index (keepFirst firstError connection.join)
      else joinLoop { s with tick := s.tick + 1 } (index + 1) firstError
termination_by s.connections.length - index
decreasing_by
  · have hdrop := (drop_swapRemove h).length_eq
    simp only [List.length_cons, List.length_drop] at hdrop
    show (swapRemove s.connections index).length - index < s.connections.length - index
    omega
  · have hindex := (List.getElem?_eq_some_iff.mp h).1
    show s.connections.length - (index + 1) < s.connections.length - index
    omega

/-- `join_finished_connections`. -/
def joinFinishedConnections (s : EchoThreads ε) : Except (EchoError ε) Unit × EchoThreads ε :=
  let (firstError, s) := s.joinLoop 0 none
  (firstErrorResult firstError, s)

end EchoThreads

/-! ## What a pass does -/

/-- A look at a connection, with its tick. -/
abbrev Look (ε : Type) := EchoConnection ε × Nat

def seenFinished (looks : List (Look ε)) : List (EchoConnection ε) :=
  (looks.filter fun look => look.1.isFinished look.2).map Prod.fst

def seenRunning (looks : List (Look ε)) : List (EchoConnection ε) :=
  (looks.filter fun look => !look.1.isFinished look.2).map Prod.fst

def EchoConnection.failure? (connection : EchoConnection ε) : Option (EchoError ε) :=
  match connection.join with
  | .error error => some error
  | .ok () => none

/-- The error of the first one that has one. -/
def firstFailure (connections : List (EchoConnection ε)) : Option (EchoError ε) :=
  connections.findSome? EchoConnection.failure?

/-- One pass, with its looks: each connection is looked at once, at a tick of its own; those seen
finished are joined, in this order, and the others stay. -/
structure Pass (s : EchoThreads ε) (looks : List (Look ε)) (s' : EchoThreads ε) : Prop where
  once : (looks.map Prod.fst).Perm s.connections
  ticks : looks.map Prod.snd = List.range' s.tick s.connections.length
  joined : s'.joined = s.joined ++ seenFinished looks
  left : s'.connections = seenRunning looks
  deferred : s'.deferred = s.deferred
  tick : s'.tick = s.tick + s.connections.length

/-- A pass sees every connection, as finished or as running. -/
theorem seen_perm (looks : List (Look ε)) :
    (seenFinished looks ++ seenRunning looks).Perm (looks.map Prod.fst) := by
  unfold seenFinished seenRunning
  rw [← List.map_append]
  exact (List.filter_append_perm _ looks).map Prod.fst

/-- Each look decides for its connection alone. -/
theorem seenFinished_cons (look : Look ε) (looks : List (Look ε)) :
    seenFinished (look :: looks) =
      if look.1.isFinished look.2 then look.1 :: seenFinished looks else seenFinished looks := by
  cases hfinished : look.1.isFinished look.2 with
  | true => simp [seenFinished, hfinished]
  | false => simp [seenFinished, hfinished]

theorem seenRunning_cons (look : Look ε) (looks : List (Look ε)) :
    seenRunning (look :: looks) =
      if look.1.isFinished look.2 then seenRunning looks else look.1 :: seenRunning looks := by
  cases hfinished : look.1.isFinished look.2 with
  | true => simp [seenRunning, hfinished]
  | false => simp [seenRunning, hfinished]

/-- The first error is kept, or the one of this connection. -/
theorem keepFirst_join (firstError : Option (EchoError ε)) (connection : EchoConnection ε) :
    keepFirst firstError connection.join = firstError.or connection.failure? := by
  unfold EchoConnection.failure?
  cases firstError with
  | some => rfl
  | none =>
      rcases connection.join with error | _
      · rfl
      · rfl

/-- A connection without a failure ended well. -/
theorem failure?_eq_none_iff (connection : EchoConnection ε) :
    connection.failure? = none ↔ connection.EndsWell := by
  rw [← EchoConnection.join_eq_ok_iff, EchoConnection.failure?]
  rcases connection.join with error | _
  · simp
  · simp

theorem firstFailure_eq_none_iff (connections : List (EchoConnection ε)) :
    firstFailure connections = none ↔ ∀ connection ∈ connections, connection.EndsWell := by
  simp [firstFailure, failure?_eq_none_iff]

theorem firstFailure_cons (connection : EchoConnection ε) (rest : List (EchoConnection ε)) :
    firstFailure (connection :: rest) = connection.failure?.or (firstFailure rest) := by
  rw [firstFailure, List.findSome?_cons]
  cases connection.failure? with
  | none => rfl
  | some => rfl

theorem firstFailure_append (xs ys : List (EchoConnection ε)) :
    firstFailure (xs ++ ys) = (firstFailure xs).or (firstFailure ys) := by
  rw [firstFailure, List.findSome?_append]
  rfl

/-- The result is a success if there was no error. -/
theorem firstErrorResult_eq_ok_iff (firstError : Option ε) :
    firstErrorResult firstError = .ok () ↔ firstError = none := by
  cases firstError with
  | none => exact ⟨fun _ => rfl, fun _ => rfl⟩
  | some => exact ⟨nofun, nofun⟩

/-- Keeping the first error of two passes is keeping it of both. -/
theorem keepFirst_firstErrorResult (firstError next : Option ε) :
    keepFirst firstError (firstErrorResult next) = firstError.or next := by
  cases firstError with
  | some => rfl
  | none =>
      cases next with
      | none => rfl
      | some => rfl

namespace EchoThreads

/-- The loop is at its end. -/
theorem joinLoop_end {s : EchoThreads ε} {kept : List (EchoConnection ε)}
    (hconnections : s.connections = kept) (firstError : Option (EchoError ε)) :
    s.joinLoop kept.length firstError = (firstError, s) := by
  have hnone : s.connections[kept.length]? = none := by
    rw [hconnections]
    exact List.getElem?_length kept
  rw [joinLoop]
  split
  · rfl
  · rename_i connection hsome
    rw [hnone] at hsome
    cases hsome

/-- One turn of the loop: a finished thread is joined, and only that one goes. -/
theorem joinLoop_turn {s : EchoThreads ε} {kept todo : List (EchoConnection ε)}
    {connection : EchoConnection ε} (hconnections : s.connections = kept ++ connection :: todo)
    (firstError : Option (EchoError ε)) :
    ∃ rest : List (EchoConnection ε), rest.Perm todo ∧
      s.joinLoop kept.length firstError =
        if connection.isFinished s.tick then
          joinLoop
            { s with
              connections := kept ++ rest
              tick := s.tick + 1
              joined := s.joined ++ [connection] }
            kept.length (firstError.or connection.failure?)
        else joinLoop { s with tick := s.tick + 1 } (kept ++ [connection]).length firstError := by
  have hsome : s.connections[kept.length]? = some connection := by
    rw [hconnections, List.getElem?_append_right (Nat.le_refl _), Nat.sub_self]
    rfl
  -- the removal leaves what is before the index alone and takes one element from the rest
  have htake : (swapRemove s.connections kept.length).take kept.length = kept := by
    rw [take_swapRemove (List.getElem?_eq_some_iff.mp hsome).1, hconnections, List.take_left]
  have hdrop := drop_swapRemove hsome
  rw [hconnections, List.drop_left, ← hconnections] at hdrop
  refine ⟨(swapRemove s.connections kept.length).drop kept.length, hdrop.cons_inv, ?_⟩
  have hleft := List.take_append_drop kept.length (swapRemove s.connections kept.length)
  rw [htake] at hleft
  rw [joinLoop]
  split
  · rename_i hnone
    rw [hnone] at hsome
    cases hsome
  · rename_i found hfound
    obtain rfl : found = connection := Option.some.inj (hfound.symm.trans hsome)
    rw [keepFirst_join, hleft, List.length_append]
    rfl

/-- The loop from an index on: what stands before it has been seen running and stays. -/
theorem joinLoop_spec (n : Nat) (kept todo : List (EchoConnection ε)) (s : EchoThreads ε)
    (firstError : Option (EchoError ε)) (hlength : todo.length = n)
    (hconnections : s.connections = kept ++ todo) :
    ∃ looks, (looks.map Prod.fst).Perm todo ∧ looks.map Prod.snd = List.range' s.tick n ∧
      s.joinLoop kept.length firstError =
        (firstError.or (firstFailure (seenFinished looks)),
          { s with
            connections := kept ++ seenRunning looks
            tick := s.tick + n
            joined := s.joined ++ seenFinished looks }) := by
  -- the induction is on the number of connections still to be looked at: a join takes one of them
  -- away, and a look at a running one moves it to `kept`
  induction n generalizing kept todo s firstError with
  | zero =>
      obtain rfl : todo = [] := List.length_eq_zero_iff.mp hlength
      refine ⟨[], List.Perm.refl _, rfl, ?_⟩
      have hkept : s.connections = kept := hconnections.trans (List.append_nil kept)
      rw [joinLoop_end hkept]
      simp [seenFinished, seenRunning, firstFailure, ← hkept]
  | succ n ih =>
      cases todo with
      | nil => cases hlength
      | cons connection todo =>
          rcases joinLoop_turn hconnections firstError with ⟨rest, hperm, hturn⟩
          rw [hturn]
          have hrest : todo.length = n := Nat.succ.inj hlength
          have htick : s.tick + (n + 1) = s.tick + 1 + n := by omega
          cases hfinished : connection.isFinished s.tick with
          | true =>
              rw [if_pos rfl]
              rcases ih kept rest
                  { s with
                    connections := kept ++ rest
                    tick := s.tick + 1
                    joined := s.joined ++ [connection] }
                  (firstError.or connection.failure?) (hperm.length_eq.trans hrest) rfl with
                ⟨looks, honce, hticks, hloop⟩
              refine ⟨(connection, s.tick) :: looks, ?_, ?_, ?_⟩
              · exact (honce.trans hperm).cons connection
              · rw [List.map_cons, hticks, List.range'_succ]
              · rw [hloop, seenFinished_cons, seenRunning_cons, if_pos hfinished, if_pos hfinished,
                  firstFailure_cons, Option.or_assoc]
                simp [htick]
          | false =>
              rw [if_neg Bool.false_ne_true]
              rcases ih (kept ++ [connection]) todo { s with tick := s.tick + 1 } firstError hrest
                  (by rw [hconnections, List.append_assoc]; rfl) with ⟨looks, honce, hticks, hloop⟩
              refine ⟨(connection, s.tick) :: looks, honce.cons connection, ?_, ?_⟩
              · rw [List.map_cons, hticks, List.range'_succ]
              · have hrunning : ¬ connection.isFinished s.tick = true := by
                  rw [hfinished]
                  exact Bool.false_ne_true
                rw [hloop, seenFinished_cons, seenRunning_cons, if_neg hrunning, if_neg hrunning]
                simp [htick]

/-- `join_finished_connections`: the first error is that of the first failed thread in the order of
the looks. -/
theorem joinFinishedConnections_spec (s : EchoThreads ε) :
    ∃ looks, Pass s looks s.joinFinishedConnections.2 ∧
      s.joinFinishedConnections.1 = firstErrorResult (firstFailure (seenFinished looks)) := by
  rcases joinLoop_spec s.connections.length [] s.connections s none rfl rfl with
    ⟨looks, honce, hticks, hloop⟩
  have hpass : s.joinFinishedConnections =
      (firstErrorResult (firstFailure (seenFinished looks)),
        { s with
          connections := seenRunning looks
          tick := s.tick + s.connections.length
          joined := s.joined ++ seenFinished looks }) := by
    rw [joinFinishedConnections, show (0 : Nat) = ([] : List (EchoConnection ε)).length from rfl,
      hloop]
    rfl
  rw [hpass]
  exact ⟨looks, ⟨honce, hticks, rfl, rfl, rfl, rfl⟩, rfl⟩

end EchoThreads

namespace Pass

variable {s s' : EchoThreads ε} {looks : List (Look ε)}

theorem perm (h : Pass s looks s') : (seenFinished looks ++ s'.connections).Perm s.connections := by
  rw [h.left]
  exact (seen_perm looks).trans h.once

/-- All looks of a pass are within its time. -/
theorem tick_bounds (h : Pass s looks s') {look : Look ε} (hlook : look ∈ looks) :
    s.tick ≤ look.2 ∧ look.2 < s'.tick := by
  have hmem : look.2 ∈ looks.map Prod.snd := List.mem_map_of_mem hlook
  rw [h.ticks, List.mem_range'_1] at hmem
  rw [h.tick]
  exact hmem

/-- What is joined has been seen finished. -/
theorem finished_of_joined (h : Pass s looks s') {connection : EchoConnection ε}
    (hmem : connection ∈ seenFinished looks) : connection.isFinished s'.tick = true := by
  rcases List.mem_map.mp hmem with ⟨look, hlook, rfl⟩
  rw [List.mem_filter] at hlook
  exact EchoConnection.isFinished_mono (Nat.le_of_lt (h.tick_bounds hlook.1).2) hlook.2

end Pass

/-! ## The drain -/

namespace EchoThreads

theorem tick_le_joinFinishedConnections (s : EchoThreads ε) :
    s.tick ≤ s.joinFinishedConnections.2.tick := by
  rcases s.joinFinishedConnections_spec with ⟨looks, hpass, _⟩
  rw [hpass.tick]
  exact Nat.le_add_right _ _

/-- `remaining` reads the clock. -/
def readClock (s : EchoThreads ε) : EchoThreads ε := { s with tick := s.tick + 1 }

/-- The thread parks, unless there is nothing to wait for; it may wake at any time. -/
def park (s : EchoThreads ε) : EchoThreads ε :=
  if s.connections.isEmpty then s else s.readClock

theorem tick_le_park (s : EchoThreads ε) : s.tick ≤ s.park.tick := by
  unfold park
  split
  · exact Nat.le_refl _
  · exact Nat.le_succ _

/-- The loop of `drain_connection_threads`; no time remains from the tick `due` on. -/
def drainLoop (due : Nat) (s : EchoThreads ε) (firstError : Option (EchoError ε)) :
    Option (EchoError ε) × EchoThreads ε :=
  if s.connections.isEmpty then (firstError, s)
  else if s.tick < due then
    let pass := s.readClock.joinFinishedConnections
    drainLoop due pass.2.park (keepFirst firstError pass.1)
  else (firstError, s.readClock)
termination_by due - s.tick
decreasing_by
  have hpass := s.readClock.tick_le_joinFinishedConnections
  have hpark := s.readClock.joinFinishedConnections.2.tick_le_park
  have hread : s.readClock.tick = s.tick + 1 := rfl
  omega

def drainTimedOut (budget : Duration) : EchoError ε :=
  .timedOut ("loopback echo connection drain exceeded " ++ budget.debug)

/-- `drain_connection_threads`. -/
def drainConnectionThreads (due : Nat) (budget : Duration) (s : EchoThreads ε) :
    Except (EchoError ε) Unit × EchoThreads ε :=
  let (firstError, s) := s.drainLoop due none
  let (result, s) := s.joinFinishedConnections
  let firstError := keepFirst firstError result
  if s.connections.isEmpty then (firstErrorResult firstError, s)
  else
    (firstErrorResult (keepFirst firstError (.error (drainTimedOut budget))),
      { s with connections := [], deferred := s.deferred ++ s.connections })

end EchoThreads

/-- What passes do from one state to another, with the threads they join. -/
structure PassRun (s : EchoThreads ε) (ended : List (EchoConnection ε)) (s' : EchoThreads ε) :
    Prop where
  joined : s'.joined = s.joined ++ ended
  perm : (ended ++ s'.connections).Perm s.connections
  deferred : s'.deferred = s.deferred
  tick : s.tick ≤ s'.tick
  finished : ∀ connection ∈ ended, connection.isFinished s'.tick = true

namespace PassRun

variable {s s₁ s' : EchoThreads ε} {ended more : List (EchoConnection ε)}

/-- A pass is a run of passes. -/
theorem of_pass {looks : List (Look ε)} (h : Pass s looks s') :
    PassRun s (seenFinished looks) s' := by
  constructor
  · exact h.joined
  · exact h.perm
  · exact h.deferred
  · rw [h.tick]
    exact Nat.le_add_right _ _
  · intro connection hmem
    exact h.finished_of_joined hmem

/-- Only the clock goes on. -/
theorem of_clock (hconnections : s'.connections = s.connections) (hjoined : s'.joined = s.joined)
    (hdeferred : s'.deferred = s.deferred) (htick : s.tick ≤ s'.tick) : PassRun s [] s' := by
  constructor
  · rw [hjoined, List.append_nil]
  · rw [hconnections]
    exact List.Perm.refl _
  · exact hdeferred
  · exact htick
  · intro connection hmem
    cases hmem

/-- Runs of passes are put together. -/
theorem trans (h : PassRun s ended s₁) (h' : PassRun s₁ more s') :
    PassRun s (ended ++ more) s' := by
  constructor
  · rw [h'.joined, h.joined, List.append_assoc]
  · rw [List.append_assoc]
    exact (h'.perm.append_left ended).trans h.perm
  · rw [h'.deferred, h.deferred]
  · exact Nat.le_trans h.tick h'.tick
  · intro connection hmem
    rcases List.mem_append.mp hmem with hmem | hmem
    · exact EchoConnection.isFinished_mono h'.tick (h.finished connection hmem)
    · exact h'.finished connection hmem

theorem readClock (s : EchoThreads ε) : PassRun s [] s.readClock :=
  of_clock rfl rfl rfl (Nat.le_succ _)

theorem park (s : EchoThreads ε) : PassRun s [] s.park := by
  unfold EchoThreads.park
  split
  · exact of_clock rfl rfl rfl (Nat.le_refl _)
  · exact readClock s

end PassRun

/-- The loop ends when no connection is left or the deadline has come. -/
theorem drainLoop_spec (due : Nat) (s : EchoThreads ε) (firstError : Option (EchoError ε)) :
    ∃ joined s', s.drainLoop due firstError = (firstError.or (firstFailure joined), s') ∧
      PassRun s joined s' ∧ (s'.connections = [] ∨ due ≤ s'.tick) := by
  induction s, firstError using EchoThreads.drainLoop.induct due with
  | case1 s firstError hempty =>
      refine ⟨[], s, ?_, PassRun.of_clock rfl rfl rfl (Nat.le_refl _), ?_⟩
      · rw [EchoThreads.drainLoop, if_pos hempty]
        exact congrArg (·, s) (Option.or_none).symm
      · exact .inl (List.isEmpty_iff.mp hempty)
  | case2 s firstError hsome hdue pass ih =>
      -- a round is a reading of the clock, a pass and a rest
      rcases s.readClock.joinFinishedConnections_spec with ⟨looks, hpass, hresult⟩
      rcases ih with ⟨joined, s', hloop, hpasses, hend⟩
      refine ⟨seenFinished looks ++ joined, s', ?_, ?_, hend⟩
      · rw [EchoThreads.drainLoop, if_neg hsome, if_pos hdue]
        show EchoThreads.drainLoop due pass.2.park (keepFirst firstError pass.1) = _
        rw [hloop, hresult, keepFirst_firstErrorResult, Option.or_assoc, ← firstFailure_append]
      · have hturn := (PassRun.readClock s).trans
          ((PassRun.of_pass hpass).trans (PassRun.park _))
        rw [List.nil_append, List.append_nil] at hturn
        exact hturn.trans hpasses
  | case3 s firstError hsome hdue =>
      refine ⟨[], s.readClock, ?_, PassRun.readClock s, ?_⟩
      · rw [EchoThreads.drainLoop, if_neg hsome, if_neg hdue]
        exact congrArg (·, s.readClock) (Option.or_none).symm
      · exact .inr (Nat.le_trans (Nat.le_of_not_lt hdue) (Nat.le_succ _))

/-- A drain, with the threads it has joined and deferred. -/
structure Drained (due : Nat) (budget : Duration) (s : EchoThreads ε)
    (ended left : List (EchoConnection ε)) (result : Except (EchoError ε) Unit)
    (s' : EchoThreads ε) : Prop where
  connections : s'.connections = []
  joined : s'.joined = s.joined ++ ended
  deferred : s'.deferred = s.deferred ++ left
  /-- Each connection is joined once or deferred once. -/
  once : (ended ++ left).Perm s.connections
  finished : ∀ connection ∈ ended, connection.isFinished s'.tick = true
  /-- It is the last pass, when the deadline has come, that decides on what it looks at. -/
  lastPass : ∃ earlier looks, ended = earlier ++ seenFinished looks ∧ left = seenRunning looks ∧
    ∀ look ∈ looks, due ≤ look.2 ∧ look.2 < s'.tick
  /-- The error of the first thread that failed, else the timeout. -/
  result : result = firstErrorResult ((firstFailure ended).or
    (if left.isEmpty then none else some (EchoThreads.drainTimedOut budget)))

/-- The drain joins what ends in time and defers what does not. -/
theorem drainConnectionThreads_spec (due : Nat) (budget : Duration) (s : EchoThreads ε) :
    ∃ ended left, Drained due budget s ended left (s.drainConnectionThreads due budget).1
      (s.drainConnectionThreads due budget).2 := by
  rcases drainLoop_spec due s none with ⟨joined, s₁, hloop, hpasses, hend⟩
  rcases s₁.joinFinishedConnections_spec with ⟨looks, hpass, hresult⟩
  have hall := hpasses.trans (PassRun.of_pass hpass)
  have hlast : ∀ look ∈ looks, due ≤ look.2 ∧ look.2 < s₁.joinFinishedConnections.2.tick := by
    intro look hlook
    have hbounds := hpass.tick_bounds hlook
    refine ⟨?_, hbounds.2⟩
    rcases hend with hempty | hdue
    · -- there is nothing to look at
      have hnone : look.1 ∈ s₁.connections := hpass.once.subset (List.mem_map_of_mem hlook)
      rw [hempty] at hnone
      cases hnone
    · exact Nat.le_trans hdue hbounds.1
  have hfirst : keepFirst (firstFailure joined) s₁.joinFinishedConnections.1 =
      firstFailure (joined ++ seenFinished looks) := by
    rw [hresult, keepFirst_firstErrorResult, firstFailure_append]
  refine ⟨joined ++ seenFinished looks, s₁.joinFinishedConnections.2.connections, ?_⟩
  unfold EchoThreads.drainConnectionThreads
  rw [hloop, Option.none_or]
  simp only [hfirst]
  -- without a timeout the error is that of the passes, else the timeout comes last
  cases hempty : s₁.joinFinishedConnections.2.connections.isEmpty with
  | true =>
      have hnil := List.isEmpty_iff.mp hempty
      rw [if_pos rfl]
      constructor
      · exact hnil
      · exact hall.joined
      · rw [hnil, List.append_nil]
        exact hall.deferred
      · exact hall.perm
      · exact hall.finished
      · exact ⟨joined, looks, rfl, hpass.left, hlast⟩
      · rw [hempty, if_pos rfl, Option.or_none]
  | false =>
      rw [if_neg Bool.false_ne_true]
      constructor
      · rfl
      · exact hall.joined
      · exact congrArg (· ++ _) hall.deferred
      · exact hall.perm
      · exact hall.finished
      · exact ⟨joined, looks, rfl, hpass.left, hlast⟩
      · rw [hempty, if_neg Bool.false_ne_true,
          ← keepFirst_firstErrorResult (firstFailure (joined ++ seenFinished looks))]
        rfl

namespace Drained

variable {due : Nat} {budget : Duration} {s s' : EchoThreads ε}
  {ended left : List (EchoConnection ε)} {result : Except (EchoError ε) Unit}

/-- A connection that is left was running when the time was over. -/
theorem running (h : Drained due budget s ended left result s') {connection : EchoConnection ε}
    (hmem : connection ∈ left) : connection.isFinished due = false := by
  rcases h.lastPass with ⟨earlier, looks, _, hleft, hticks⟩
  rw [hleft] at hmem
  rcases List.mem_map.mp hmem with ⟨look, hlook, rfl⟩
  rw [List.mem_filter, Bool.not_eq_true'] at hlook
  rw [Bool.eq_false_iff]
  intro hfinished
  have hlater := EchoConnection.isFinished_mono (hticks look hlook.1).1 hfinished
  rw [hlook.2] at hlater
  cases hlater

/-- The drain succeeds exactly if nothing is left and all connections ended well. -/
theorem result_eq_ok_iff (h : Drained due budget s ended left result s') :
    result = .ok () ↔ left = [] ∧ ∀ connection ∈ s.connections, connection.EndsWell := by
  rw [h.result, firstErrorResult_eq_ok_iff, Option.or_eq_none_iff, firstFailure_eq_none_iff]
  constructor
  · intro hnone
    have hempty : left = [] := by
      by_contra hne
      rw [if_neg (by rwa [List.isEmpty_iff])] at hnone
      cases hnone.2
    refine ⟨hempty, fun connection hmem => hnone.1 connection ?_⟩
    have hperm := h.once
    rw [hempty, List.append_nil] at hperm
    exact hperm.symm.subset hmem
  · intro hnone
    refine ⟨fun connection hmem => ?_, by rw [hnone.1]; rfl⟩
    exact hnone.2 connection (h.once.subset (List.mem_append_left _ hmem))

end Drained

/-- From any connections, however their threads finish. One pass looks at each thread once, and
what it sees finished is not left behind. The drain leaves the list empty, with each thread joined
once or handed to the reaper once: joined if it has finished by the deadline, handed over if the
last pass, after it, still sees it running. -/
theorem drain_once (due : Nat) (budget : Duration) (s : EchoThreads ε) :
    (∃ looks, Pass s looks s.joinFinishedConnections.2) ∧
    ∃ ended left, Drained due budget s ended left (s.drainConnectionThreads due budget).1
        (s.drainConnectionThreads due budget).2 ∧
      (∀ connection ∈ s.connections, connection.isFinished due = true →
        connection ∈ ended ∧ connection ∉ left) ∧
      (∀ connection ∈ s.connections,
        connection.isFinished (s.drainConnectionThreads due budget).2.tick = false →
        connection ∈ left ∧ connection ∉ ended) ∧
      ((s.drainConnectionThreads due budget).1 = .ok () ↔
        left = [] ∧ ∀ connection ∈ s.connections, connection.EndsWell) := by
  rcases s.joinFinishedConnections_spec with ⟨looks, hpass, _⟩
  rcases drainConnectionThreads_spec due budget s with ⟨ended, left, hdrained⟩
  refine ⟨⟨looks, hpass⟩, ended, left, hdrained, ?_, ?_, hdrained.result_eq_ok_iff⟩
  · intro connection hmem hfinished
    have hnot : connection ∉ left := by
      intro hleft
      rw [hdrained.running hleft] at hfinished
      cases hfinished
    exact ⟨(List.mem_append.mp (hdrained.once.symm.subset hmem)).resolve_right hnot, hnot⟩
  · intro connection hmem hrunning
    have hnot : connection ∉ ended := by
      intro hended
      rw [hdrained.finished connection hended] at hrunning
      cases hrunning
    exact ⟨(List.mem_append.mp (hdrained.once.symm.subset hmem)).resolve_left hnot, hnot⟩

/-- A thread that finishes well at the tick `finishedAt`. -/
def endingAt (finishedAt : Nat) : EchoConnection ε where
  finishedAt := some finishedAt
  panicked := false
  completion := some (.ok ())
  sends _ := rfl

/-- A thread that runs when the deadline comes and finishes before the last pass looks at it. -/
theorem late_thread_is_joined :
    ¬ ∀ (s : EchoThreads Unit) (due : Nat) (budget : Duration), ∀ connection ∈ s.connections,
      connection.isFinished due = false →
        connection ∈ (s.drainConnectionThreads due budget).2.deferred := by
  intro h
  have hmem := h { connections := [endingAt 1] } 0 ⟨0⟩ (endingAt 1) (List.mem_singleton_self _) rfl
  have hseen : (endingAt 1 : EchoConnection Unit).isFinished 1 = true := rfl
  have hpass : ({ connections := [endingAt 1], tick := 1 } : EchoThreads Unit).joinLoop 0 none =
      (none, { tick := 2, joined := [endingAt 1] }) := by
    rcases @EchoThreads.joinLoop_turn Unit { connections := [endingAt 1], tick := 1 } [] []
      (endingAt 1) rfl none with ⟨rest, hperm, hturn⟩
    obtain rfl : rest = [] := hperm.eq_nil
    rw [show (0 : Nat) = ([] : List (EchoConnection Unit)).length from rfl, hturn, if_pos hseen]
    exact EchoThreads.joinLoop_end rfl none
  simp [EchoThreads.drainConnectionThreads, EchoThreads.drainLoop, EchoThreads.readClock,
    EchoThreads.joinFinishedConnections, hpass] at hmem

/-! ## The listener -/

/-- What comes of one `accept`; a connection has its thread, or the start of it has failed. -/
inductive Accept (ε : Type) where
  | accepted (connection : EchoConnection ε)
  | spawnFailed (error : ε)
  | wouldBlock
  | interrupted
  | failed (error : ε)

namespace Accept

def connection? : Accept ε → Option (EchoConnection ε)
  | .accepted connection => some connection
  | _ => none

def failure? : Accept ε → Option (EchoError ε)
  | .spawnFailed error | .failed error => some (.io error)
  | _ => none

end Accept

/-- An error takes the place of the outcome if that is `Ok`. -/
def keepOutcome : Except ε Unit → Except ε Unit → Except ε Unit
  | .ok (), result => result
  | .error error, _ => .error error

/-- The outcome is a success if both were. -/
theorem keepOutcome_eq_ok_iff (outcome result : Except ε Unit) :
    keepOutcome outcome result = .ok () ↔ outcome = .ok () ∧ result = .ok () := by
  cases outcome with
  | ok => exact ⟨fun h => ⟨rfl, h⟩, fun h => h.2⟩
  | error => exact ⟨nofun, fun h => nomatch h.1⟩

/-- The variables of `run_echo_listener`, with what it has accepted. -/
structure EchoListener (ε : Type) where
  threads : EchoThreads ε := {}
  outcome : Except (EchoError ε) Unit := .ok ()
  cancelled : Bool := false
  handled : List (Accept ε) := []

namespace EchoListener

/-- The first half of a turn. -/
def accept (s : EchoListener ε) (next : Accept ε) : EchoListener ε :=
  let s := { s with handled := s.handled ++ [next] }
  match next with
  | .accepted connection =>
      let connections := s.threads.connections ++ [connection]
      { s with threads := { s.threads with connections } }
  | .spawnFailed error | .failed error =>
      { s with outcome := .error (.io error), cancelled := true }
  | .wouldBlock | .interrupted => s

/-- The second half of a turn: a thread that failed ends the listener. -/
def joinFinished (s : EchoListener ε) : EchoListener ε :=
  let (result, threads) := s.threads.joinFinishedConnections
  match result with
  | .ok () => { s with threads }
  | .error error =>
      { s with threads, outcome := keepOutcome s.outcome (.error error), cancelled := true }

/-- The loop, until it is cancelled from outside. -/
def listen : List (Accept ε) → EchoListener ε → EchoListener ε
  | [], s => s
  | next :: rest, s => if s.cancelled then s else listen rest (s.accept next).joinFinished

/-- `run_echo_listener`. -/
def run (accepts : List (Accept ε)) (due : Nat) (budget : Duration) : EchoListener ε :=
  let s := listen accepts {}
  let (result, threads) := s.threads.drainConnectionThreads due budget
  { s with threads, outcome := keepOutcome s.outcome result }

/-- What holds at the start of each turn. -/
structure Listening (s : EchoListener ε) : Prop where
  once : (s.threads.joined ++ s.threads.connections).Perm (s.handled.filterMap Accept.connection?)
  deferred : s.threads.deferred = []
  outcome : s.outcome = .ok () ↔ (∀ next ∈ s.handled, next.failure? = none) ∧
    ∀ connection ∈ s.threads.joined, connection.EndsWell

/-- An accept adds its connection, or its failure. -/
theorem Listening.accept {s : EchoListener ε} (h : s.Listening) (next : Accept ε) :
    (s.accept next).Listening := by
  have hfailed : ∀ error, next.failure? = some error →
      ¬ ∀ other ∈ s.handled ++ [next], other.failure? = none := by
    intro error herror hnone
    rw [hnone next (List.mem_append_right _ (List.mem_singleton_self next))] at herror
    cases herror
  have hwent : next.failure? = none →
      ((∀ other ∈ s.handled ++ [next], other.failure? = none) ↔
        ∀ other ∈ s.handled, other.failure? = none) := by
    intro hnone
    simp [or_imp, forall_and, hnone]
  have hsame : next.connection? = none → (s.handled ++ [next]).filterMap Accept.connection? =
      s.handled.filterMap Accept.connection? := by
    intro hnone
    simp [hnone]
  cases next with
  | accepted connection =>
      constructor
      · show (s.threads.joined ++ (s.threads.connections ++ [connection])).Perm
          ((s.handled ++ [Accept.accepted connection]).filterMap Accept.connection?)
        rw [← List.append_assoc, List.filterMap_append]
        exact h.once.append_right _
      · exact h.deferred
      · exact h.outcome.trans (and_congr_left' (hwent rfl).symm)
  | spawnFailed error | failed error =>
      -- nothing is pushed, and the outcome is an error for good
      constructor
      · exact h.once.trans (.of_eq (hsame rfl).symm)
      · exact h.deferred
      · exact ⟨nofun, fun hok => absurd hok.1 (hfailed (.io error) rfl)⟩
  | wouldBlock | interrupted =>
      constructor
      · exact h.once.trans (.of_eq (hsame rfl).symm)
      · exact h.deferred
      · exact h.outcome.trans (and_congr_left' (hwent rfl).symm)

/-- Joining changes the threads and the outcome alone. -/
theorem joinFinished_fields (s : EchoListener ε) :
    s.joinFinished.threads = s.threads.joinFinishedConnections.2 ∧
    s.joinFinished.handled = s.handled ∧
    s.joinFinished.outcome = keepOutcome s.outcome s.threads.joinFinishedConnections.1 := by
  unfold joinFinished
  rcases s.threads.joinFinishedConnections with ⟨error | _, threads⟩
  · exact ⟨rfl, rfl, rfl⟩
  · refine ⟨rfl, rfl, ?_⟩
    cases s.outcome with
    | ok => rfl
    | error => rfl

/-- Joining moves connections and keeps what is known. -/
theorem Listening.joinFinished {s : EchoListener ε} (h : s.Listening) :
    s.joinFinished.Listening := by
  rcases s.threads.joinFinishedConnections_spec with ⟨looks, hpass, hresult⟩
  rcases s.joinFinished_fields with ⟨hthreads, hhandled, houtcome⟩
  constructor
  · rw [hthreads, hhandled, hpass.joined, List.append_assoc]
    exact (hpass.perm.append_left _).trans h.once
  · rw [hthreads, hpass.deferred, h.deferred]
  · rw [houtcome, keepOutcome_eq_ok_iff, h.outcome, hresult, firstErrorResult_eq_ok_iff,
      firstFailure_eq_none_iff, hthreads, hhandled, hpass.joined]
    simp only [List.mem_append, or_imp, forall_and, and_assoc]

/-- Listening to any accepts keeps what is known. -/
theorem Listening.listen {accepts : List (Accept ε)} {s : EchoListener ε} (h : s.Listening) :
    (listen accepts s).Listening := by
  induction accepts generalizing s with
  | nil => exact h
  | cons next rest ih =>
      unfold EchoListener.listen
      split
      · exact h
      · exact ih (h.accept next).joinFinished

/-- In every run of the listener each connection that it has accepted is joined once or handed to
the reaper once. It returns `Ok` when nothing has failed and no thread was handed over. -/
theorem listener_once (accepts : List (Accept ε)) (due : Nat) (budget : Duration) :
    let s := run accepts due budget
    s.threads.connections = [] ∧
    (s.threads.joined ++ s.threads.deferred).Perm (s.handled.filterMap Accept.connection?) ∧
    (s.outcome = .ok () ↔ (∀ next ∈ s.handled, next.failure? = none) ∧ s.threads.deferred = [] ∧
      ∀ connection ∈ s.handled.filterMap Accept.connection?, connection.EndsWell) := by
  -- listening starts without connections
  have hstart : (listen accepts {}).Listening := by
    apply Listening.listen
    exact ⟨List.Perm.refl _, rfl, ⟨fun _ => ⟨nofun, nofun⟩, fun _ => rfl⟩⟩
  let s := listen accepts {}
  rcases drainConnectionThreads_spec due budget s.threads with ⟨ended, left, hdrained⟩
  -- the drain moves the connections that are left
  have honce : (s.threads.joined ++ ended ++ left).Perm
      (s.handled.filterMap Accept.connection?) := by
    rw [List.append_assoc]
    exact (hdrained.once.append_left _).trans hstart.once
  have hleft := hdrained.deferred
  rw [show s.threads.deferred = [] from hstart.deferred, List.nil_append] at hleft
  refine ⟨hdrained.connections, ?_, ?_⟩
  · show ((s.threads.drainConnectionThreads due budget).2.joined ++
      (s.threads.drainConnectionThreads due budget).2.deferred).Perm _
    rw [hdrained.joined, hleft]
    exact honce
  · show keepOutcome s.outcome (s.threads.drainConnectionThreads due budget).1 = .ok () ↔
      _ ∧ (s.threads.drainConnectionThreads due budget).2.deferred = [] ∧ _
    rw [keepOutcome_eq_ok_iff, hstart.outcome, hdrained.result_eq_ok_iff, hleft]
    -- each handled connection was joined before or during the drain
    have hall : (∀ connection ∈ s.handled.filterMap Accept.connection?, connection.EndsWell) ↔
        (∀ connection ∈ s.threads.joined, connection.EndsWell) ∧
          ∀ connection ∈ s.threads.connections, connection.EndsWell := by
      rw [← List.forall_mem_append]
      exact ⟨fun hwell connection hmem => hwell connection (hstart.once.subset hmem),
        fun hwell connection hmem => hwell connection (hstart.once.symm.subset hmem)⟩
    rw [show (run accepts due budget).handled = s.handled from rfl, hall]
    tauto

end EchoListener

end Rssh
