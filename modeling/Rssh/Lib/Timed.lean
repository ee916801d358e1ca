import Rssh.Lib.Syscall

/-!
# Programs that wait

A program that waits for one thing after the other, under nested timeouts, and that its caller may
drop while it waits. A wait goes over several polls. At each of them the program either goes on or
stays pending; when it stays pending the live timers are looked at, the innermost first, and a
caller that wants to drop the program does so before it is polled again.

* `await` is one wait, `timeout` a timer around a program, `droppable` a program in the hands of
  such a caller.
* `EndsBy` says how a program with a deadline ends, and `timeout_endsBy` that one under a timer
  does.
* `KeepsTime limit duration`, for a program whose timers are not shorter than `duration`: it is
  pending only before the limit of a live timer, and stopped by a timer only when that is over.
* `Does` says which events a program adds to its own log, also where it is stopped on the way.
-/

namespace Timed

open Posix

section Programs

variable {τ ε σ α : Type}

/-- One more poll: how long after the one before it, and whether the caller drops the program
instead. -/
structure Poll where
  after : Nat
  dropped : Bool := false
deriving DecidableEq, Repr

/-- Why a program stops. -/
inductive Stop (τ ε : Type) where
  | failed (error : ε)
  | elapsed (timer : τ)
  | dropped
deriving DecidableEq, Repr

/-- The clock, the live timers with their deadlines, and the program's own state. `waits n` are the
polls that its wait number `n` lets pass, and `pending` has the instants at which it has stayed
pending. -/
structure Clocked (τ σ : Type) where
  own : σ
  waits : Nat → List Poll
  now : Nat := 0
  timers : List (τ × Nat) := []
  droppable : Bool := false
  awaits : Nat := 0
  pending : List Nat := []

abbrev TimedM (τ ε σ : Type) := EStateM (Stop τ ε) (Clocked τ σ)

/-- The first timer, from inside, whose deadline is over. -/
def Clocked.fired (s : Clocked τ σ) : Option τ := (s.timers.find? (·.2 ≤ s.now)).map Prod.fst

/-- Stay pending, and be polled again. -/
def Clocked.polled (s : Clocked τ σ) (poll : Poll) : Clocked τ σ :=
  { s with now := s.now + poll.after, pending := s.pending ++ [s.now] }

/-- A wait that lets these polls pass. -/
def stay : List Poll → TimedM τ ε σ Unit
  | [], s => .ok () s
  | poll :: polls, s =>
      match s.fired with
      | some timer => .error (.elapsed timer) s
      | none =>
          -- the caller comes first when the program is polled again
          if s.droppable && poll.dropped then .error .dropped (s.polled poll)
          else stay polls (s.polled poll)

/-- The next wait. -/
def await : TimedM τ ε σ Unit := fun s => stay (s.waits s.awaits) { s with awaits := s.awaits + 1 }

/-- Run a program under a timer. -/
def timeout (timer : τ) (duration : Nat) (body : TimedM τ ε σ α) : TimedM τ ε σ α := fun s =>
  match body { s with timers := (timer, s.now + duration) :: s.timers } with
  | .ok a s' => .ok a { s' with timers := s.timers }
  | .error stop s' => .error stop { s' with timers := s.timers }

/-- Run a program that the caller may drop, if it has not done so `already`. -/
def droppable (already : Bool) (body : TimedM τ ε σ α) : TimedM τ ε σ α := fun s =>
  if already then .error .dropped s
  else
    match body { s with droppable := true } with
    | .ok a s' => .ok a { s' with droppable := s.droppable }
    | .error stop s' => .error stop { s' with droppable := s.droppable }

def ofExcept : Except ε α → TimedM τ ε σ α
  | .ok a, s => .ok a s
  | .error error, s => .error (.failed error) s

/-- An operation on the program's own state. -/
def onOwn (f : σ → α × σ) : TimedM τ ε σ α := fun s => .ok (f s.own).1 { s with own := (f s.own).2 }

end Programs

/-- What a poll of a pending program can do. -/
theorem stay_cons {τ ε σ : Type} (poll : Poll) (polls : List Poll) (s : Clocked τ σ) :
    (∃ timer, s.fired = some timer ∧
      (stay (poll :: polls) : TimedM τ ε σ Unit) s = .error (.elapsed timer) s) ∨
    s.fired = none ∧
      (s.droppable = true ∧
        (stay (poll :: polls) : TimedM τ ε σ Unit) s = .error .dropped (s.polled poll) ∨
      (stay (poll :: polls) : TimedM τ ε σ Unit) s = stay polls (s.polled poll)) := by
  cases hfired : s.fired with
  | some timer => exact .inl ⟨timer, rfl, by simp only [stay, hfired]⟩
  | none =>
      refine .inr ⟨rfl, ?_⟩
      by_cases hdropped : (s.droppable && poll.dropped) = true
      · have hdroppable : s.droppable = true := (Bool.and_eq_true _ _ ▸ hdropped).1
        exact .inl ⟨hdroppable, by simp only [stay, hfired, hdropped, if_true]⟩
      · exact .inr (by simp only [stay, hfired, if_neg hdropped])

/-! ## Time -/

section Time

variable {τ ε σ α β : Type} {limit duration : Nat} {s s' : Clocked τ σ}

/-- No live timer ends before the limit, one of them ends there, and the program has been pending
only before it. -/
structure InTime (limit duration : Nat) (s : Clocked τ σ) : Prop where
  later : ∀ timer ∈ s.timers, limit ≤ timer.2
  limiting : ∃ timer ∈ s.timers, timer.2 ≤ limit
  covered : limit ≤ s.now + duration
  pending : ∀ instant ∈ s.pending, instant < limit

/-- The program is pending only before the limit, no timer stops it sooner, and only a caller that
may drop it does. -/
def KeepsTime (limit duration : Nat) (x : TimedM τ ε σ α) : Prop :=
  ∀ s, InTime limit duration s →
    match x s with
    | .ok _ s' => s'.timers = s.timers ∧ s'.droppable = s.droppable ∧ InTime limit duration s'
    | .error stop s' => (∀ instant ∈ s'.pending, instant < limit) ∧
        (∀ timer, stop = .elapsed timer → limit ≤ s'.now) ∧
        (stop = .dropped → s.droppable = true)

/-- A program that no timer stops at a poll is pending before the limit. -/
theorem InTime.polled (h : InTime limit duration s) (hfired : s.fired = none) (poll : Poll) :
    InTime limit duration (s.polled poll) := by
  have hnow : s.now < limit := by
    rcases h.limiting with ⟨timer, hmem, hle⟩
    have hlate := List.find?_eq_none.mp (Option.map_eq_none_iff.mp hfired) timer hmem
    simp only [decide_eq_true_eq, not_le] at hlate
    exact lt_of_lt_of_le hlate hle
  constructor
  · exact h.later
  · exact h.limiting
  · show limit ≤ s.now + poll.after + duration
    have hcovered := h.covered
    omega
  · intro instant hmem
    rcases List.mem_append.mp hmem with hold | hnew
    · exact h.pending instant hold
    · rwa [List.mem_singleton.mp hnew]

/-- A timer fires only when the limit is over. -/
theorem InTime.fired (h : InTime limit duration s) {timer : τ} (hfired : s.fired = some timer) :
    limit ≤ s.now := by
  rcases Option.map_eq_some_iff.mp hfired with ⟨found, hfound, -⟩
  have hover := List.find?_some hfound
  simp only [decide_eq_true_eq] at hover
  exact le_trans (h.later found (List.mem_of_find?_eq_some hfound)) hover

/-- A wait keeps the time, however many polls it takes. -/
theorem stay_keepsTime (polls : List Poll) :
    KeepsTime limit duration (stay polls : TimedM τ ε σ Unit) := by
  intro s hs
  -- on the polls: one that lets the program go on keeps `InTime`
  induction polls generalizing s with
  | nil => exact ⟨rfl, rfl, hs⟩
  | cons poll polls ih =>
      rcases stay_cons poll polls s with ⟨timer, hfired, hrun⟩ | ⟨hfired, hrun⟩
      · rw [hrun]
        exact ⟨hs.pending, fun _ _ => hs.fired hfired, nofun⟩
      · have hpolled := hs.polled hfired poll
        rcases hrun with ⟨hdroppable, hrun⟩ | hrun
        · rw [hrun]
          exact ⟨hpolled.pending, nofun, fun _ => hdroppable⟩
        · rw [hrun]
          exact ih (s.polled poll) hpolled

namespace KeepsTime

theorem pure {a : α} : KeepsTime limit duration (Pure.pure a : TimedM τ ε σ α) :=
  fun _ hs => ⟨rfl, rfl, hs⟩

/-- A result or an error of the program's own takes no time. -/
theorem ofExcept {x : Except ε α} :
    KeepsTime limit duration (Timed.ofExcept x : TimedM τ ε σ α) := by
  cases x with
  | ok a => exact pure
  | error error => exact fun _ hs => ⟨hs.pending, nofun, nofun⟩

theorem onOwn {f : σ → α × σ} : KeepsTime limit duration (Timed.onOwn f : TimedM τ ε σ α) :=
  fun _ hs => ⟨rfl, rfl, hs.later, hs.limiting, hs.covered, hs.pending⟩

/-- Each wait of the program keeps the time. -/
theorem await : KeepsTime limit duration (Timed.await : TimedM τ ε σ Unit) := by
  intro s hs
  exact stay_keepsTime (s.waits s.awaits) { s with awaits := s.awaits + 1 }
    ⟨hs.later, hs.limiting, hs.covered, hs.pending⟩

/-- Programs that keep the time keep it one after another. -/
theorem bind {x : TimedM τ ε σ α} {f : α → TimedM τ ε σ β} (hx : KeepsTime limit duration x)
    (hf : ∀ a, KeepsTime limit duration (f a)) : KeepsTime limit duration (x >>= f) := by
  intro s hs
  have hxs := hx s hs
  cases hrun : x s with
  | ok a s' =>
      rw [hrun] at hxs
      rw [bind_of_ok hrun, ← hxs.1, ← hxs.2.1]
      exact hf a s' hxs.2.2
  | error stop s' =>
      rw [hrun] at hxs
      rw [bind_of_error hrun]
      exact hxs

/-- A timer that is not shorter does not end before the limit either. -/
theorem timeout {timer : τ} {longer : Nat} {body : TimedM τ ε σ α} (hlonger : duration ≤ longer)
    (h : KeepsTime limit duration body) :
    KeepsTime limit duration (Timed.timeout timer longer body) := by
  intro s hs
  have hinner : InTime limit duration
      { s with timers := (timer, s.now + longer) :: s.timers } := by
    constructor
    · intro found hfound
      -- the new timer runs from now on, and `covered` bounds what is left of the limit
      rcases List.mem_cons.mp hfound with rfl | hfound
      · show limit ≤ s.now + longer
        have hcovered := hs.covered
        omega
      · exact hs.later found hfound
    · rcases hs.limiting with ⟨found, hmem, hle⟩
      exact ⟨found, List.mem_cons_of_mem _ hmem, hle⟩
    · exact hs.covered
    · exact hs.pending
  have hbody := h _ hinner
  unfold Timed.timeout
  cases hrun : body { s with timers := (timer, s.now + longer) :: s.timers } with
  | ok a s' =>
      rw [hrun] at hbody
      exact ⟨rfl, hbody.2.1, hs.later, hs.limiting, hbody.2.2.covered, hbody.2.2.pending⟩
  | error stop s' =>
      rw [hrun] at hbody
      exact hbody

end KeepsTime

/-- How a program ends that has a deadline: it has been pending only before the deadline, a timer
has stopped it only when that is over, and it was dropped only if it may be. -/
def EndsBy (deadline : Nat) (mayDrop : Prop) : EStateM.Result (Stop τ ε) (Clocked τ σ) α → Prop
  | .ok _ s => ∀ instant ∈ s.pending, instant < deadline
  | .error stop s => (∀ instant ∈ s.pending, instant < deadline) ∧
      (∀ timer, stop = .elapsed timer → deadline ≤ s.now) ∧ (stop = .dropped → mayDrop)

/-- A caller that may do more may also drop the program. -/
theorem EndsBy.mono {deadline : Nat} {mayDrop mayDrop' : Prop}
    {ended : EStateM.Result (Stop τ ε) (Clocked τ σ) α} (h : EndsBy deadline mayDrop ended)
    (hdrop : mayDrop → mayDrop') : EndsBy deadline mayDrop' ended := by
  cases ended with
  | ok a s => exact h
  | error stop s => exact ⟨h.1, h.2.1, fun hstop => hdrop (h.2.2 hstop)⟩

/-- A program under its outermost timer. -/
theorem timeout_endsBy {timer : τ} {body : TimedM τ ε σ α}
    (h : ∀ limit, KeepsTime limit duration body) (htimers : s.timers = [])
    (hpending : s.pending = []) :
    EndsBy (s.now + duration) (s.droppable = true) (timeout timer duration body s) := by
  -- the new timer is the only one, and nothing has been pending yet
  have hstart : InTime (s.now + duration) duration
      { s with timers := (timer, s.now + duration) :: s.timers } := by
    constructor
    · intro found hfound
      rw [htimers] at hfound
      rw [List.mem_singleton.mp hfound]
    · exact ⟨_, List.mem_cons_self, le_refl _⟩
    · exact le_refl _
    · intro instant hmem
      rw [show _ = s.pending from rfl, hpending] at hmem
      cases hmem
  have hbody := h _ _ hstart
  unfold timeout
  cases hrun : body { s with timers := (timer, s.now + duration) :: s.timers } with
  | ok a s' =>
      rw [hrun] at hbody
      exact hbody.2.2.pending
  | error stop s' =>
      rw [hrun] at hbody
      exact hbody

/-- A program that its caller may drop, and may have dropped before. -/
theorem droppable_endsBy {deadline : Nat} {mayDrop : Prop} {already : Bool}
    {body : TimedM τ ε σ α} (h : EndsBy deadline True (body { s with droppable := true }))
    (hpending : s.pending = []) (hmayDrop : mayDrop) :
    EndsBy deadline mayDrop (droppable already body s) := by
  unfold droppable
  cases already with
  | true =>
      -- the program was dropped before it started
      refine ⟨?_, nofun, fun _ => hmayDrop⟩
      rw [hpending]
      exact fun instant hmem => absurd hmem List.not_mem_nil
  | false =>
      simp only [Bool.false_eq_true, if_false]
      cases hrun : body { s with droppable := true } with
      | ok a s' =>
          rw [hrun] at h
          exact h
      | error stop s' =>
          rw [hrun] at h
          exact ⟨h.1, h.2.1, fun _ => hmayDrop⟩

end Time

/-! ## Logs -/

section Logs

variable {τ ε σ α β event : Type} {Holds : List event → σ → Prop} {before script after : List event}
  {Q : α → Prop} {R : β → Prop}

/-- With `Holds events` for "these events have happened": after the events before it, the program
ends with those of the script, or is stopped after a first part of them. -/
def Does (Holds : List event → σ → Prop) (before script : List event) (x : TimedM τ ε σ α)
    (Q : α → Prop) : Prop :=
  Triple (fun s => Holds before s.own) x (fun a s => Q a ∧ Holds (before ++ script) s.own)
    (fun s => ∃ part, part <+: script ∧ Holds (before ++ part) s.own)

namespace Does

theorem pure {a : α} (h : Q a) : Does Holds before [] (Pure.pure a : TimedM τ ε σ α) Q := by
  intro s hs
  exact ⟨h, by rwa [List.append_nil]⟩

theorem ofExcept {x : Except ε α} :
    Does Holds before [] (Timed.ofExcept x : TimedM τ ε σ α) (fun a => x = .ok a) := by
  cases x with
  | ok a => exact pure rfl
  | error error =>
      intro s hs
      exact ⟨[], List.prefix_rfl, by rwa [List.append_nil]⟩

theorem onOwn {f : σ → α × σ}
    (h : ∀ own, Holds before own → Q (f own).1 ∧ Holds (before ++ script) (f own).2) :
    Does Holds before script (Timed.onOwn f : TimedM τ ε σ α) Q :=
  fun s hs => h s.own hs

/-- A wait adds nothing to the log, also where it is cut. -/
theorem await : Does Holds before [] (Timed.await : TimedM τ ε σ Unit) (fun _ => True) := by
  have hstay : ∀ polls,
      Does Holds before [] (stay polls : TimedM τ ε σ Unit) (fun _ => True) := by
    intro polls s hs
    have hnothing : ∀ own, Holds before own → Holds (before ++ []) own := by
      intro own hown
      rwa [List.append_nil]
    -- at each poll it is stopped, dropped, or waits on
    induction polls generalizing s with
    | nil => exact ⟨trivial, hnothing _ hs⟩
    | cons poll polls ih =>
        rcases stay_cons poll polls s with ⟨timer, -, hrun⟩ | ⟨-, ⟨-, hrun⟩ | hrun⟩
        · rw [hrun]
          exact ⟨[], List.prefix_rfl, hnothing _ hs⟩
        · rw [hrun]
          exact ⟨[], List.prefix_rfl, hnothing _ hs⟩
        · rw [hrun]
          exact ih (s.polled poll) hs
  intro s hs
  exact hstay (s.waits s.awaits) { s with awaits := s.awaits + 1 } hs

/-- The events of two programs come one after the other; if the first is stopped, the second adds
none. -/
theorem bind {x : TimedM τ ε σ α} {f : α → TimedM τ ε σ β} (hx : Does Holds before script x Q)
    (hf : ∀ a, Q a → Does Holds (before ++ script) after (f a) R) :
    Does Holds before (script ++ after) (x >>= f) R := by
  refine Triple.bind (hx.fails ?_) fun a => Triple.of_fact fun ha => ?_
  · rintro s ⟨part, hpart, hholds⟩
    exact ⟨part, hpart.trans (List.prefix_append _ _), hholds⟩
  · refine ((hf a ha).weaken (fun s hs => hs) ?_).fails ?_
    · rintro b s ⟨hb, hholds⟩
      exact ⟨hb, by rwa [← List.append_assoc]⟩
    · rintro s ⟨part, hpart, hholds⟩
      exact ⟨script ++ part, (List.prefix_append_right_inj script).mpr hpart,
        by rwa [← List.append_assoc]⟩

/-- The first program adds nothing. -/
theorem bind_quiet {x : TimedM τ ε σ α} {f : α → TimedM τ ε σ β} (hx : Does Holds before [] x Q)
    (hf : ∀ a, Q a → Does Holds before after (f a) R) : Does Holds before after (x >>= f) R := by
  refine hx.bind fun a ha => ?_
  rw [List.append_nil]
  exact hf a ha

/-- The rest adds nothing. -/
theorem bind_rest {x : TimedM τ ε σ α} {f : α → TimedM τ ε σ β} (hx : Does Holds before script x Q)
    (hf : ∀ a, Q a → Does Holds (before ++ script) [] (f a) R) :
    Does Holds before script (x >>= f) R := by
  have hboth := hx.bind hf
  rwa [List.append_nil] at hboth

/-- The first program never ends. -/
theorem stops {x : TimedM τ ε σ α} {f : α → TimedM τ ε σ β} (hx : Does Holds before script x Q)
    (hnever : ∀ a, ¬ Q a) : Does Holds before script (x >>= f) R :=
  Triple.bind hx fun a _ h => absurd h.1 (hnever a)

theorem mono {Q' : α → Prop} {x : TimedM τ ε σ α} (hx : Does Holds before script x Q)
    (h : ∀ a, Q a → Q' a) : Does Holds before script x Q' :=
  hx.weaken (fun _ hs => hs) fun a _ hs => ⟨h a hs.1, hs.2⟩

/-- A timer may stop the program anywhere, but adds no event. -/
theorem timeout {timer : τ} {duration : Nat} {body : TimedM τ ε σ α}
    (h : Does Holds before script body Q) :
    Does Holds before script (Timed.timeout timer duration body) Q := by
  intro s hs
  have hbody := h { s with timers := (timer, s.now + duration) :: s.timers } hs
  unfold Timed.timeout
  cases hrun : body { s with timers := (timer, s.now + duration) :: s.timers } with
  | ok a s' | error stop s' =>
      rw [hrun] at hbody
      exact hbody

/-- A caller that drops the program adds no event. -/
theorem droppable {already : Bool} {body : TimedM τ ε σ α}
    (h : Does Holds before script body Q) :
    Does Holds before script (Timed.droppable already body) Q := by
  intro s hs
  unfold Timed.droppable
  cases already with
  | true => exact ⟨[], List.nil_prefix, by rwa [List.append_nil]⟩
  | false =>
      have hbody := h { s with droppable := true } hs
      simp only [Bool.false_eq_true, if_false]
      cases hrun : body { s with droppable := true } with
      | ok a s' | error stop s' =>
          rw [hrun] at hbody
          exact hbody

end Does

end Logs

end Timed
