import Rssh.Server.Sessions

/-!
# Remote forwards

For each port that a client forwards, `run_remote_forward` accepts connections and spawns a bridge
for each of them. The session keeps a `RemoteForwardTask`, which stops the forward through a watch
channel and, if that takes too long, aborts it.

The machine `forwardRun` puts the task of a forward, its bridges and its `RemoteForwardTask`
together. The task may also be aborted by the shutdown of the tracker that it was spawned through.

* `remote_forward` says what has become of the bridges, of a stop and of the steps that are left.
-/

namespace Rssh

variable {limit : Nat}

/-- How the task of a forward has ended. -/
inductive ForwardEnd where
  | returned
  | dropped
deriving DecidableEq, Repr

/-- Where a `RemoteForwardTask` is: held by the session, in its `stop`, or dropped without one. The
second wait of a stop has no end if the clock cannot represent it. -/
inductive ForwardStop (limit : Nat) where
  | held
  | waiting (deadline : ShutdownDeadline limit)
  | secondary (deadline : ShutdownDeadline limit) (upTo : Option (Instant limit))
  | stopped (deadline : ShutdownDeadline limit) (completed : Bool)
  | dropped
deriving DecidableEq

/-- A forward: the loop of its task and when the bridges have ended, the watch channel and the abort
handle that its `RemoteForwardTask` has. -/
structure ForwardRun (limit : Nat) where
  now : Instant limit
  loop : AcceptLoop Unit limit := {}
  bridges : List (Option (Instant limit)) := []
  cancel : Bool := false
  aborted : Bool := false
  ended : Option (ForwardEnd × Instant limit) := none
  stop : ForwardStop limit := .held
deriving DecidableEq

inductive ForwardRunLabel (limit : Nat) where
  | advance (later : Instant limit)
  | loop (label : AcceptLabel limit)
  | bridgeEnds (bridge : Nat)
  | returns
  | aborts
  | drops
  | stops (first : Instant limit)
  | completes
  | elapses
  | givesUp
  | dropsTask
deriving DecidableEq

namespace ForwardRun

def policy (limit : Nat) : AcceptPolicy Unit limit where
  breaks := true
  drainUpTo _ := none
  grace := secondaryDrain

/-- What the loop sees: `cancelled` returns once the watch channel has been sent `true`. -/
def world (s : ForwardRun limit) : AcceptWorld Unit limit where
  now := s.now
  request := if s.cancel then some () else none
  ended bridge := s.bridges[bridge]?.join

def ranOver (s : ForwardRun limit) (upTo : Instant limit) : Bool :=
  upTo ≤ s.now && s.ended.all (upTo ≤ ·.2)

/-- One step of `run_remote_forward`, of its bridges, or of `RemoteForwardTask`. The completion is
ready as soon as the task has ended, since its sender is dropped then. -/
def step (s : ForwardRun limit) : ForwardRunLabel limit → Option (ForwardRun limit)
  | .advance later => if s.now ≤ later then some { s with now := later } else none
  | .loop label =>
      if s.ended.isNone then
        (s.loop.step (policy limit) s.world label).map fun loop =>
          { s with
            loop
            bridges := if label = .accepts then s.bridges ++ [none] else s.bridges }
      else none
  | .bridgeEnds bridge =>
      match s.bridges[bridge]? with
      | some none => some { s with bridges := s.bridges.set bridge (some s.now) }
      | _ => none
  | .returns =>
      if s.ended.isNone ∧ s.loop.hasEnded then some { s with ended := some (.returned, s.now) }
      else none
  | .aborts => some { s with aborted := true }
  | .drops =>
      if s.ended.isNone ∧ s.aborted then
        some { s with loop := s.loop.drop, ended := some (.dropped, s.now) }
      else none
  | .stops first =>
      match s.stop with
      | .held =>
          if first ≤ s.now then
            some { s with cancel := true, stop := .waiting (.after first s.now sessionTeardown) }
          else none
      | _ => none
  -- the drop behind `stop` cancels and aborts once more
  | .completes =>
      match s.stop with
      | .waiting deadline | .secondary deadline _ =>
          if s.ended.isSome then some { s with aborted := true, stop := .stopped deadline true }
          else none
      | _ => none
  | .elapses =>
      match s.stop with
      | .waiting deadline =>
          if s.ranOver deadline.at_ then
            let upTo := s.now.checkedAdd secondaryDrain
            some { s with aborted := true, stop := .secondary deadline upTo }
          else none
      | _ => none
  | .givesUp =>
      match s.stop with
      | .secondary deadline (some upTo) =>
          if s.ranOver upTo then some { s with stop := .stopped deadline false } else none
      | _ => none
  | .dropsTask =>
      match s.stop with
      | .held => some { s with cancel := true, aborted := true, stop := .dropped }
      | _ => none

end ForwardRun

def forwardRun (limit : Nat) : Machine (ForwardRun limit) (ForwardRunLabel limit) where
  step := ForwardRun.step

/-! ## What every step keeps -/

namespace ForwardRun

variable {s s' : ForwardRun limit}

/-- What is known of the `RemoteForwardTask`. -/
def StopInv (s : ForwardRun limit) : Prop :=
  match s.stop with
  | .held => True
  | .waiting _ => s.cancel = true
  | .secondary deadline upTo =>
      (s.cancel = true ∧ s.aborted = true) ∧
        (deadline.at_ ≤ s.now ∧ NotBefore deadline.at_ s.ended) ∧
        ∀ second, upTo = some second → deadline.at_.nanos + secondaryDrain ≤ second.nanos
  | .stopped deadline completed =>
      (s.cancel = true ∧ s.aborted = true) ∧
        (completed = true → s.ended.isSome = true) ∧
        (completed = false → ∃ upTo, deadline.at_.nanos + secondaryDrain ≤ upTo.nanos ∧
          upTo ≤ s.now ∧ NotBefore upTo s.ended)
  | .dropped => s.cancel = true ∧ s.aborted = true

/-- The loop keeps what it is known by until it is dropped. -/
structure Inv (s : ForwardRun limit) : Prop where
  loop : (∀ time, s.ended ≠ some (.dropped, time)) → s.loop.Inv (policy limit) s.world
  spawned : s.loop.spawned = s.bridges.length
  returned : ∀ time, s.ended = some (.returned, time) → s.loop.hasEnded = true
  dropped : ∀ time, s.ended = some (.dropped, time) → s.aborted = true ∧ s.loop.Dropped
  stop : s.StopInv

/-- While the task has not ended, its loop has the invariant of an accept loop. -/
theorem Inv.loop_of_running (h : s.Inv) (hrunning : s.ended = none) :
    s.loop.Inv (policy limit) s.world := by
  apply h.loop
  intro time hended
  rw [hrunning] at hended
  cases hended

/-- What has been sent, aborted or ended stays so; an end that has not come is a later one. -/
theorem StopInv.mono (h : s.StopInv) (hstop : s'.stop = s.stop)
    (hcancel : s.cancel = true → s'.cancel = true)
    (haborted : s.aborted = true → s'.aborted = true) (hnow : s.now ≤ s'.now)
    (hended : s'.ended = s.ended ∨ s.ended = none ∧ ∃ outcome, s'.ended = some (outcome, s'.now)) :
    s'.StopInv := by
  -- the task ends now, if it ends
  have hbefore : ∀ upTo, upTo ≤ s.now → NotBefore upTo s.ended → NotBefore upTo s'.ended := by
    intro upTo hle hbefore
    rcases hended with hsame | ⟨-, outcome, hends⟩
    · rwa [hsame]
    · intro found hfound
      rw [hends] at hfound
      obtain rfl := Option.some.inj hfound
      exact hle.trans hnow
  have hflags : s.cancel = true ∧ s.aborted = true → s'.cancel = true ∧ s'.aborted = true := by
    intro hflags
    exact ⟨hcancel hflags.1, haborted hflags.2⟩
  cases hat : s.stop with
  -- nothing is claimed before the stop
  | held => simp only [StopInv, hstop, hat]
  | waiting deadline =>
      simp only [StopInv, hat] at h
      simp only [StopInv, hstop, hat]
      exact hcancel h
  | secondary deadline upTo =>
      simp only [StopInv, hat] at h
      simp only [StopInv, hstop, hat]
      exact ⟨hflags h.1, ⟨h.2.1.1.trans hnow, hbefore _ h.2.1.1 h.2.1.2⟩, h.2.2⟩
  | stopped deadline completed =>
      simp only [StopInv, hat] at h
      simp only [StopInv, hstop, hat]
      refine ⟨hflags h.1, ?_, ?_⟩
      · intro hcompleted
        rcases hended with hsame | ⟨-, outcome, hends⟩
        · rw [hsame]
          exact h.2.1 hcompleted
        · rw [hends]
          rfl
      · intro hnot
        rcases h.2.2 hnot with ⟨upTo, hlater, hle, hnone⟩
        exact ⟨upTo, hlater, hle.trans hnow, hbefore upTo hle hnone⟩
  | dropped =>
      simp only [StopInv, hat] at h
      simp only [StopInv, hstop, hat]
      exact hflags h

theorem ranOver_iff {upTo : Instant limit} :
    s.ranOver upTo = true ↔ upTo ≤ s.now ∧ NotBefore upTo s.ended := by
  unfold ranOver NotBefore
  cases s.ended with
  | none => simp
  | some found => simp

theorem nanos_of_checkedAdd {t end_ : Instant limit} {duration : Nat}
    (h : t.checkedAdd duration = some end_) : end_.nanos = t.nanos + duration := by
  unfold Instant.checkedAdd at h
  split_ifs at h
  obtain rfl := Option.some.inj h
  rfl

/-- What the loop of a forward can see of a step that is not one of its own. -/
theorem world_inv (h : s.Inv) (hkept : ∀ time, s.ended ≠ some (.dropped, time))
    (hnow : s.now ≤ s'.now)
    (hcancel : s.cancel = true → s'.cancel = true)
    (hbridges : ∀ bridge : Nat, s'.bridges[bridge]?.join = s.bridges[bridge]?.join ∨
      s.bridges[bridge]?.join = none ∧ s'.bridges[bridge]?.join = some s'.now) :
    s.loop.Inv (policy limit) s'.world := by
  apply (h.loop hkept).evolves
  refine ⟨hnow, ?_, hbridges⟩
  intro hrequest
  have hsent : s.cancel = true := by
    by_contra hnot
    simp [world, hnot] at hrequest
  simp [world, hcancel hsent]

/-- The loop takes a step, and the bridges get one more with a connection. -/
theorem loop_inv (h : s.Inv) (hrunning : s.ended = none) {label : AcceptLabel limit}
    {loop : AcceptLoop Unit limit}
    (hstep : AcceptLoop.Steps (policy limit) s.world s.loop label loop) :
    ({ s with
        loop := loop
        bridges := if label = .accepts then s.bridges ++ [none] else s.bridges } :
      ForwardRun limit).Inv := by
  have hbridges : ∀ bridge : Nat,
      (if label = .accepts then s.bridges ++ [none] else s.bridges)[bridge]?.join =
        s.bridges[bridge]?.join := by
    intro bridge
    split_ifs
    · rcases Nat.lt_trichotomy bridge s.bridges.length with hlt | rfl | hgt
      · rw [List.getElem?_append_left hlt]
      · simp
      · rw [List.getElem?_eq_none (by simp; omega), List.getElem?_eq_none hgt.le]
    · rfl
  refine ⟨?_, ?_, ?_, ?_, h.stop⟩
  · intro _
    apply ((h.loop_of_running hrunning).step hstep).evolves
    exact ⟨le_refl _, id, fun bridge => .inl (hbridges bridge)⟩
  · cases hstep with
    -- the new bridge is the last one
    | accepts => simp [h.spawned]
    | polls | drains | stops | breaks | fails | pends | joins | drainJoins | fallbackJoins | elapses
      | hands | aborts | drained | closes => exact h.spawned
  · intro time hended
    rw [hrunning] at hended
    cases hended
  · intro time hended
    rw [hrunning] at hended
    cases hended

theorem returns_inv (h : s.Inv) (hrunning : s.ended = none) (hended : s.loop.hasEnded = true) :
    ({ s with ended := some (.returned, s.now) } : ForwardRun limit).Inv := by
  refine ⟨fun _ => h.loop_of_running hrunning, h.spawned, fun _ _ => hended, ?_, ?_⟩
  · intro time hdropped
    cases hdropped
  · exact h.stop.mono rfl id id (le_refl _) (.inr ⟨hrunning, .returned, rfl⟩)

/-- The task of a forward is dropped. -/
theorem drops_inv (h : s.Inv) (hrunning : s.ended = none) (haborted : s.aborted = true) :
    ({ s with loop := s.loop.drop, ended := some (.dropped, s.now) } : ForwardRun limit).Inv := by
  refine ⟨?_, h.spawned, ?_, fun _ _ => ⟨haborted, (h.loop_of_running hrunning).drop⟩, ?_⟩
  · intro hkept
    exact absurd rfl (hkept s.now)
  · intro time hreturned
    cases hreturned
  · exact h.stop.mono rfl id id (le_refl _) (.inr ⟨hrunning, .dropped, rfl⟩)

/-- A step of the `RemoteForwardTask`. -/
theorem stop_inv (h : s.Inv) {cancel aborted : Bool} {stop : ForwardStop limit}
    (hcancel : s.cancel = true → cancel = true) (haborted : s.aborted = true → aborted = true)
    (hstop : ({ s with cancel := cancel, aborted := aborted, stop := stop } :
      ForwardRun limit).StopInv) :
    ({ s with cancel := cancel, aborted := aborted, stop := stop } : ForwardRun limit).Inv := by
  refine ⟨?_, h.spawned, h.returned, ?_, hstop⟩
  · exact fun hkept => world_inv (s := s) h hkept (le_refl _) hcancel fun bridge => .inl rfl
  · intro time hended
    exact ⟨haborted (h.dropped time hended).1, (h.dropped time hended).2⟩

/-- The loop takes a step only while its task runs. -/
theorem loop_eq_some {label : AcceptLabel limit} (h : s.step (.loop label) = some s') :
    s.ended = none ∧ ∃ loop, AcceptLoop.Steps (policy limit) s.world s.loop label loop ∧
      s' =
        { s with
          loop := loop
          bridges := if label = .accepts then s.bridges ++ [none] else s.bridges } := by
  simp only [step, Option.isNone_iff_eq_none] at h
  split at h
  · rename_i hrunning
    rcases Option.map_eq_some_iff.mp h with ⟨loop, hstep, rfl⟩
    exact ⟨hrunning, loop, AcceptLoop.steps_of_step hstep, rfl⟩
  · cases h

/-- Each step of a remote forward keeps the invariant. -/
theorem step_inv {label : ForwardRunLabel limit} (h : s.step label = some s') (hinv : s.Inv) :
    s'.Inv := by
  cases label with
  | advance later =>
      simp only [step] at h
      split_ifs at h with hlater
      obtain rfl := Option.some.inj h
      refine ⟨?_, hinv.spawned, hinv.returned, hinv.dropped, ?_⟩
      · exact fun hkept => world_inv (s := s) hinv hkept hlater id fun bridge => .inl rfl
      · exact hinv.stop.mono rfl id id hlater (.inl rfl)
  | loop label =>
      rcases loop_eq_some h with ⟨hrunning, loop, hstep, rfl⟩
      exact loop_inv hinv hrunning hstep
  | bridgeEnds bridge =>
      simp only [step] at h
      split at h
      · rename_i hbridge
        obtain rfl := Option.some.inj h
        have hlt := (List.getElem?_eq_some_iff.mp hbridge).1
        refine ⟨?_, ?_, hinv.returned, hinv.dropped, hinv.stop⟩
        · intro hkept
          apply world_inv (s := s) hinv hkept
          · exact le_refl _
          · exact id
          intro other
          show (s.bridges.set bridge (some s.now))[other]?.join = s.bridges[other]?.join ∨
            s.bridges[other]?.join = none ∧
              (s.bridges.set bridge (some s.now))[other]?.join = some s.now
          rw [List.getElem?_set]
          by_cases heq : bridge = other
          · subst heq
            rw [if_pos rfl, if_pos hlt, hbridge]
            exact .inr ⟨rfl, rfl⟩
          · rw [if_neg heq]
            exact .inl rfl
        · show s.loop.spawned = (s.bridges.set bridge (some s.now)).length
          rw [List.length_set]
          exact hinv.spawned
      · cases h
  | returns =>
      simp only [step, Option.isNone_iff_eq_none] at h
      split_ifs at h with hguard
      obtain rfl := Option.some.inj h
      exact returns_inv hinv hguard.1 hguard.2
  | aborts =>
      obtain rfl := Option.some.inj h
      have hstop : StopInv { s with aborted := true } :=
        hinv.stop.mono rfl id (fun _ => rfl) (le_refl _) (.inl rfl)
      exact stop_inv hinv id (fun _ => rfl) hstop
  | drops =>
      simp only [step, Option.isNone_iff_eq_none] at h
      split_ifs at h with hguard
      obtain rfl := Option.some.inj h
      exact drops_inv hinv hguard.1 hguard.2
  | stops first =>
      simp only [step] at h
      split at h
      · split_ifs at h with hfirst
        obtain rfl := Option.some.inj h
        exact stop_inv hinv (fun _ => rfl) id rfl
      · cases h
  | completes =>
      have hcancel : ∀ deadline upTo,
          s.stop = .waiting deadline ∨ s.stop = .secondary deadline upTo → s.cancel = true := by
        intro deadline upTo hat
        have hknown := hinv.stop
        rcases hat with hat | hat
        · simpa only [StopInv, hat] using hknown
        · simp only [StopInv, hat] at hknown
          exact hknown.1.1
      simp only [step] at h
      split at h
      · rename_i deadline hat
        split_ifs at h with hended
        obtain rfl := Option.some.inj h
        exact stop_inv hinv id (fun _ => rfl)
          ⟨⟨hcancel deadline none (.inl hat), rfl⟩, fun _ => hended, nofun⟩
      · rename_i deadline upTo hat
        split_ifs at h with hended
        obtain rfl := Option.some.inj h
        exact stop_inv hinv id (fun _ => rfl)
          ⟨⟨hcancel deadline upTo (.inr hat), rfl⟩, fun _ => hended, nofun⟩
      · cases h
  | elapses =>
      simp only [step] at h
      split at h
      · rename_i deadline hat
        split_ifs at h with hover
        obtain rfl := Option.some.inj h
        have hknown := hinv.stop
        simp only [StopInv, hat] at hknown
        have hlate := ranOver_iff.mp hover
        refine stop_inv hinv id (fun _ => rfl) ⟨⟨hknown, rfl⟩, hlate, ?_⟩
        intro second hsecond
        rw [nanos_of_checkedAdd hsecond]
        exact Nat.add_le_add_right (Instant.le_iff.mp hlate.1) _
      · cases h
  | givesUp =>
      simp only [step] at h
      split at h
      · rename_i deadline upTo hat
        split_ifs at h with hover
        obtain rfl := Option.some.inj h
        have hknown := hinv.stop
        simp only [StopInv, hat] at hknown
        have hlate := ranOver_iff.mp hover
        refine stop_inv hinv id id ⟨hknown.1, nofun, ?_⟩
        intro _
        exact ⟨upTo, hknown.2.2 upTo rfl, hlate⟩
      · cases h
  | dropsTask =>
      simp only [step] at h
      split at h
      · obtain rfl := Option.some.inj h
        exact stop_inv hinv (fun _ => rfl) (fun _ => rfl) ⟨rfl, rfl⟩
      · cases h

theorem start_inv (now : Instant limit) : ({ now } : ForwardRun limit).Inv :=
  ⟨fun _ => AcceptLoop.start_inv _ _, rfl, nofun, nofun, trivial⟩

/-! ## The steps that are left -/

/-- The steps of the forward's task but the look for the request. -/
def ofTask : ForwardRunLabel limit → Prop
  | .loop label => label ≠ .polls
  | .returns => True
  | _ => False

def rank (s : ForwardRun limit) : Nat := s.loop.rank + if s.ended.isNone then 1 else 0

/-- A step of the task brings it closer to its end. -/
theorem rank_lt {label : ForwardRunLabel limit} (hown : ofTask label)
    (h : s.step label = some s') : s'.rank < s.rank := by
  cases label with
  | loop label =>
      rcases loop_eq_some h with ⟨-, loop, hstep, rfl⟩
      have hlower := hstep.rank_lt hown
      simp only [rank]
      omega
  | returns =>
      simp only [step] at h
      split_ifs at h with hguard
      obtain rfl := Option.some.inj h
      simp [rank, hguard.1]
  | advance | bridgeEnds | aborts | drops | stops | completes | elapses | givesUp | dropsTask =>
      cases hown

/-- The loop waits, before the end of its grace period, for bridges of which none has ended. -/
def Waits (s : ForwardRun limit) : Prop :=
  ∃ upTo, s.loop.waitsUpTo = some upTo ∧ s.now < upTo ∧ s.loop.live ≠ [] ∧
    ∀ bridge ∈ s.loop.live, s.bridges[bridge]?.join = none

/-- A cancelled task that can take no step has ended, or waits for its bridges. -/
theorem ended_or_waits (hcancel : s.cancel = true)
    (hquiet : (forwardRun limit).Quiet ofTask s) : s.ended.isSome = true ∨ s.Waits := by
  by_cases hrunning : s.ended = none
  · have hstuck : ∀ label : AcceptLabel limit, label.listens = false →
        s.loop.step (policy limit) s.world label = none := by
      intro label hlistens
      have hpolls : label ≠ .polls := by
        intro heq
        rw [heq] at hlistens
        cases hlistens
      have hnone := hquiet (.loop label) hpolls
      simpa [forwardRun, step, hrunning] using hnone
    -- the cancellation is the request of the loop
    have hrequest : s.world.request.isSome = true := by simp [world, hcancel]
    rcases AcceptLoop.ended_or_waits hrequest hstuck with hended | hwaits
    · -- an ended loop can return
      have hreturns := hquiet .returns trivial
      simp [forwardRun, step, hrunning, hended] at hreturns
    · exact .inr hwaits
  · exact .inl (Option.isSome_iff_ne_none.mpr hrunning)

/-- The task does not take the cancellation back. -/
theorem cancel_step {label : ForwardRunLabel limit} (hown : ofTask label)
    (h : s.step label = some s') (hcancel : s.cancel = true) : s'.cancel = true := by
  cases label with
  | loop label =>
      rcases loop_eq_some h with ⟨-, loop, -, rfl⟩
      exact hcancel
  | returns =>
      simp only [step] at h
      split_ifs at h
      obtain rfl := Option.some.inj h
      exact hcancel
  | advance | bridgeEnds | aborts | drops | stops | completes | elapses | givesUp | dropsTask =>
      cases hown

/-- What has become of a forward. -/
structure Report (s : ForwardRun limit) : Prop where
  /-- At most one connection is accepted after the stop. -/
  late : s.loop.late ≤ 1
  places : (s.loop.joined ++ s.loop.live ++ s.loop.handed ++ s.loop.detached).Perm
    (List.range s.bridges.length)
  /-- The task has returned: each bridge is joined, or was aborted and is with the reaper. -/
  returned : ∀ time, s.ended = some (.returned, time) →
    (s.loop.joined ++ s.loop.handed).Perm (List.range s.bridges.length) ∧
      s.loop.handed ⊆ s.loop.aborted
  /-- Only an abort makes it end otherwise: then the bridges that it has not joined were aborted. -/
  dropped : ∀ time, s.ended = some (.dropped, time) → s.aborted = true ∧
    (s.loop.joined ++ s.loop.handed ++ s.loop.detached).Perm (List.range s.bridges.length) ∧
      s.loop.handed ++ s.loop.detached ⊆ s.loop.aborted
  /-- A stop has returned: the task has ended, or it had not by the deadline, and the time behind
  its abort was over too. -/
  stopped : ∀ deadline completed, s.stop = .stopped deadline completed →
    s.cancel = true ∧ s.aborted = true ∧ (completed = true → s.ended.isSome = true) ∧
      (completed = false → ∃ upTo, deadline.at_.nanos + secondaryDrain ≤ upTo.nanos ∧
        upTo ≤ s.now ∧ NotBefore upTo s.ended)

/-- A loop that was dropped has its bridges in one place each, as one that runs. -/
theorem Inv.places (h : s.Inv) : s.loop.late ≤ 1 ∧
    (s.loop.joined ++ s.loop.live ++ s.loop.handed ++ s.loop.detached).Perm
      (List.range s.bridges.length) := by
  rw [← h.spawned]
  by_cases hkept : ∀ time, s.ended ≠ some (.dropped, time)
  · exact ⟨(h.loop hkept).late_le, (h.loop hkept).places⟩
  · push Not at hkept
    rcases hkept with ⟨time, hended⟩
    have hdropped := (h.dropped time hended).2
    exact ⟨hdropped.late, hdropped.places⟩

/-- The invariant gives the report. -/
theorem report (h : s.Inv) : s.Report := by
  have hplaces := h.places.2
  refine ⟨h.places.1, hplaces, ?_, ?_, ?_⟩
  · intro time hended
    have hdone := h.returned time hended
    have hloop : s.loop.Inv (policy limit) s.world := by
      apply h.loop
      intro other hdropped
      rw [hended] at hdropped
      cases hdropped
    have hknown := hloop.stage
    cases hstage : s.loop.stage with
    | closed stop =>
        -- some were aborted at the end of the drain
        simp only [AcceptLoop.StageInv, hstage] at hknown
        rcases hknown with ⟨hlive, hdetached, -, hsubset⟩
        rw [hlive, hdetached, List.append_nil, List.append_nil] at hplaces
        exact ⟨hplaces, hsubset⟩
    | drained stop =>
        -- all were joined
        simp only [AcceptLoop.StageInv, hstage] at hknown
        rcases hknown with ⟨hlive, -, hhanded, hdetached⟩
        rw [hlive, hdetached, List.append_nil, List.append_nil] at hplaces
        rw [hhanded] at hplaces ⊢
        exact ⟨hplaces, List.nil_subset _⟩
    | failed =>
        -- a failed accept goes on to the drain here
        simp only [AcceptLoop.StageInv, hstage] at hknown
        cases hknown.1
    | selecting | polled | draining | aborting | fallback =>
        -- the loop has not ended
        rw [AcceptLoop.hasEnded, hstage] at hdone
        cases hdone
  · intro time hended
    rcases h.dropped time hended with ⟨haborted, hdropped⟩
    rw [hdropped.live, List.append_nil] at hplaces
    exact ⟨haborted, hplaces, hdropped.aborted⟩
  · intro deadline completed hstop
    have hknown := h.stop
    simp only [StopInv, hstop] at hknown
    exact ⟨hknown.1.1, hknown.1.2, hknown.2⟩

end ForwardRun

/-- In every run of a forward its bridges, its task and its stop are as reported. Once it has been
told to stop, its task takes a bounded number of steps, and can take them up to its end, or to where
it waits for bridges that have not ended and its time is not over. -/
theorem remote_forward {now : Instant limit} {trace : List (ForwardRunLabel limit)}
    {s : ForwardRun limit} (hrun : (forwardRun limit).run { now } trace = some s) :
    s.Report ∧
    (∀ more s', (∀ label ∈ more, ForwardRun.ofTask label) →
      (forwardRun limit).run s more = some s' → more.length ≤ s.loop.live.length + 8) ∧
    (s.cancel = true → ∃ more s', (∀ label ∈ more, ForwardRun.ofTask label) ∧
      (forwardRun limit).run s more = some s' ∧ (s'.ended.isSome = true ∨ s'.Waits)) := by
  have hstep : ∀ (before : ForwardRun limit) label after,
      (forwardRun limit).step before label = some after → before.Inv → after.Inv := by
    intro before label after hstep hbefore
    exact ForwardRun.step_inv hstep hbefore
  -- `rank` bounds the steps, and a run that cannot be made longer is quiet
  have hlower : ∀ (before : ForwardRun limit) label after, ForwardRun.ofTask label →
      (forwardRun limit).step before label = some after → after.rank < before.rank := by
    intro before label after hown hstep
    exact ForwardRun.rank_lt hown hstep
  refine ⟨ForwardRun.report (Machine.run_invariant hstep hrun (ForwardRun.start_inv now)), ?_, ?_⟩
  · intro more s' hown hmore
    have hlength := Machine.length_le_rank hlower hown hmore
    have hrank : s.rank ≤ s.loop.live.length + 8 := by
      unfold ForwardRun.rank AcceptLoop.rank
      split
      all_goals split
      all_goals omega
    omega
  · intro hcancel
    have hkeep : ∀ (before : ForwardRun limit) label after, ForwardRun.ofTask label →
        (forwardRun limit).step before label = some after →
          before.cancel = true → after.cancel = true := by
      intro before label after hown hstep hbefore
      exact ForwardRun.cancel_step hown hstep hbefore
    rcases Machine.exists_quiet hlower hkeep hcancel with ⟨more, s', hown, hmore, hafter, hquiet⟩
    exact ⟨more, s', hown, hmore, ForwardRun.ended_or_waits hafter hquiet⟩

/-- A bridge that goes on after the stop: it is aborted, and handed over when the grace period
ends. -/
def stoppedForward : List (ForwardRunLabel 10) :=
  [.loop .polls, .loop .accepts, .loop .polls, .stops (upToTen 0), .loop .accepts, .loop .stops,
    .loop (.aborts (upToTen 0)), .bridgeEnds 0, .loop (.joins 0), .loop .elapses, .returns,
    .completes]

/-- The report of a forward that is stopped. -/
theorem remote_forward_stoppedForward :
    ∃ s, (forwardRun 10).run { now := upToTen 0 } stoppedForward = some s ∧
      s.loop.handed = [1] ∧ s.loop.late = 1 ∧ s.Report := by
  have hresult : ((forwardRun 10).run { now := upToTen 0 } stoppedForward).map
      (fun s => (s.loop.handed, s.loop.late)) = some ([1], 1) := by
    decide
  rcases Option.map_eq_some_iff.mp hresult with ⟨s, hrun, hfields⟩
  exact ⟨s, hrun, congrArg Prod.fst hfields, congrArg Prod.snd hfields, (remote_forward hrun).1⟩

end Rssh
