import Mathlib.Logic.Function.Basic
import Rssh.Lib.Machine
import Rssh.Types

/-!
# The shared runtime

`LazyRusshRuntime::get_or_try_init` reads a once-cell, takes a lock, reads the cell again,
builds a runtime and publishes it. The machine `lazyRussh` has any number of threads that
call it again and again; each label is one atomic step of one thread, and the outcomes of
the constructions are part of the labels.

* `LazyInv` is the invariant: who holds the lock, what the cell and the log of successful
  constructions say at each point of a call, and what the calls have returned.
* `get_or_try_init_once` is the result about all interleavings.
-/

namespace Rssh

/-! ## The machine -/

/-- How `RusshRuntimeHandle::build_production` ends. -/
inductive BuildOutcome (ρ : Type) where
  | built (runtime : ρ)
  | failed (message : String)
  | panicked
deriving DecidableEq, Repr

/-- Where a thread stands in `get_or_try_init`. `leaving` has its value and still holds the
lock, which is released as the call returns. -/
inductive InitPc (ρ : Type) where
  | idle
  | locking
  | checking
  | building
  | publishing (runtime : ρ)
  | leaving (result : Except SshSessionError ρ)
deriving DecidableEq

/-- The points of a call at which the thread holds the lock. -/
def InitPc.locked {ρ : Type} : InitPc ρ → Bool
  | .idle => false
  | .locking => false
  | .checking => true
  | .building => true
  | .publishing _ => true
  | .leaving _ => true

/-- `LazyRusshRuntime` and its callers. `built` logs the constructions that succeeded and
`returns` what the calls have returned, oldest first. -/
structure LazyRussh (ι ρ : Type) where
  runtime : Option ρ := none
  owner : Option ι := none
  poisoned : Bool := false
  pc : ι → InitPc ρ := fun _ => .idle
  built : List ρ := []
  returns : List (ι × Except SshSessionError ρ) := []

inductive InitLabel (ι ρ : Type) where
  | get (i : ι)
  | lock (i : ι)
  | check (i : ι)
  | build (i : ι) (outcome : BuildOutcome ρ)
  | publish (i : ι)
  | leave (i : ι)

def poisonedError : SshSessionError := ⟨"SSH async runtime initialization lock is poisoned"⟩

def concurrentError : SshSessionError := ⟨"SSH async runtime initialized concurrently"⟩

def creationError (message : String) : SshSessionError :=
  ⟨"SSH async runtime creation failed: " ++ message⟩

/-- The texts differ from the fourth word on. -/
theorem creationError_ne (message : String) : creationError message ≠ concurrentError := by
  intro h
  have htext : "SSH async runtime creation failed: " ++ message =
      "SSH async runtime initialized concurrently" := congrArg SshSessionError.message h
  have hchars := congrArg (fun text : String => text.toList.take 19) htext
  simp only [String.toList_append] at hchars
  rw [List.take_append_of_le_length (by decide +kernel)] at hchars
  revert hchars
  decide +kernel

variable {ι ρ : Type} [DecidableEq ι]

namespace LazyRussh

/-- Move one thread. -/
def goto (s : LazyRussh ι ρ) (i : ι) (pc : InitPc ρ) : LazyRussh ι ρ :=
  { s with pc := Function.update s.pc i pc }

/-- A call of a thread without the lock returns. -/
def answer (s : LazyRussh ι ρ) (i : ι) (result : Except SshSessionError ρ) : LazyRussh ι ρ :=
  { s.goto i .idle with returns := s.returns ++ [(i, result)] }

/-- One atomic step of `get_or_try_init`. -/
def step (s : LazyRussh ι ρ) : InitLabel ι ρ → Option (LazyRussh ι ρ)
  | .get i =>
      match s.pc i with
      | .idle =>
          match s.runtime with
          | some runtime => some (s.answer i (.ok runtime))
          | none => some (s.goto i .locking)
      | _ => none
  | .lock i =>
      match s.pc i, s.owner with
      | .locking, none =>
          -- a poisoned lock is given back with the error
          if s.poisoned then some (s.answer i (.error poisonedError))
          else some { s.goto i .checking with owner := some i }
      | _, _ => none
  | .check i =>
      match s.pc i with
      | .checking =>
          match s.runtime with
          | some runtime => some (s.goto i (.leaving (.ok runtime)))
          | none => some (s.goto i .building)
      | _ => none
  | .build i outcome =>
      match s.pc i with
      | .building =>
          match outcome with
          | .built runtime =>
              some { s.goto i (.publishing runtime) with built := s.built ++ [runtime] }
          | .failed message => some (s.goto i (.leaving (.error (creationError message))))
          | .panicked => some { s.goto i .idle with owner := none, poisoned := true }
      | _ => none
  | .publish i =>
      match s.pc i with
      | .publishing runtime =>
          match s.runtime with
          | some _ => some (s.goto i (.leaving (.error concurrentError)))
          | none => some { s.goto i (.leaving (.ok runtime)) with runtime := some runtime }
      | _ => none
  | .leave i =>
      match s.pc i with
      | .leaving result => some { s.answer i result with owner := none }
      | _ => none

end LazyRussh

def lazyRussh (ι ρ : Type) [DecidableEq ι] : Machine (LazyRussh ι ρ) (InitLabel ι ρ) where
  step s l := s.step l

/-- Everything a step can do. -/
inductive LazyRussh.Step (s : LazyRussh ι ρ) : InitLabel ι ρ → LazyRussh ι ρ → Prop
  | hit {i : ι} {runtime : ρ} (hpc : s.pc i = .idle) (hcell : s.runtime = some runtime) :
      Step s (.get i) (s.answer i (.ok runtime))
  | miss {i : ι} (hpc : s.pc i = .idle) (hcell : s.runtime = none) :
      Step s (.get i) (s.goto i .locking)
  | refuse {i : ι} (hpc : s.pc i = .locking) (hfree : s.owner = none)
      (hpoison : s.poisoned = true) : Step s (.lock i) (s.answer i (.error poisonedError))
  | lock {i : ι} (hpc : s.pc i = .locking) (hfree : s.owner = none)
      (hpoison : s.poisoned = false) :
      Step s (.lock i) { s.goto i .checking with owner := some i }
  | found {i : ι} {runtime : ρ} (hpc : s.pc i = .checking) (hcell : s.runtime = some runtime) :
      Step s (.check i) (s.goto i (.leaving (.ok runtime)))
  | missing {i : ι} (hpc : s.pc i = .checking) (hcell : s.runtime = none) :
      Step s (.check i) (s.goto i .building)
  | built {i : ι} {runtime : ρ} (hpc : s.pc i = .building) :
      Step s (.build i (.built runtime))
        { s.goto i (.publishing runtime) with built := s.built ++ [runtime] }
  | failed {i : ι} {message : String} (hpc : s.pc i = .building) :
      Step s (.build i (.failed message))
        (s.goto i (.leaving (.error (creationError message))))
  | panicked {i : ι} (hpc : s.pc i = .building) :
      Step s (.build i .panicked) { s.goto i .idle with owner := none, poisoned := true }
  | lost {i : ι} {runtime other : ρ} (hpc : s.pc i = .publishing runtime)
      (hcell : s.runtime = some other) :
      Step s (.publish i) (s.goto i (.leaving (.error concurrentError)))
  | published {i : ι} {runtime : ρ} (hpc : s.pc i = .publishing runtime)
      (hcell : s.runtime = none) :
      Step s (.publish i) { s.goto i (.leaving (.ok runtime)) with runtime := some runtime }
  | leave {i : ι} {result : Except SshSessionError ρ} (hpc : s.pc i = .leaving result) :
      Step s (.leave i) { s.answer i result with owner := none }

/-- `Step` has every step of a caller. -/
theorem LazyRussh.step_sound {s s' : LazyRussh ι ρ} {l : InitLabel ι ρ}
    (h : (lazyRussh ι ρ).step s l = some s') : Step s l s' := by
  change s.step l = some s' at h
  cases l with
  | get i =>
      -- the fast path: the cell is set, or not yet
      simp only [step] at h
      split at h
      · rename_i hpc
        split at h
        · rename_i hcell
          obtain rfl := Option.some.inj h
          exact .hit hpc hcell
        · rename_i hcell
          obtain rfl := Option.some.inj h
          exact .miss hpc hcell
      · cases h
  | lock i =>
      simp only [step] at h
      split at h
      · rename_i hpc hfree
        split at h
        · rename_i hpoison
          obtain rfl := Option.some.inj h
          exact .refuse hpc hfree hpoison
        · rename_i hpoison
          obtain rfl := Option.some.inj h
          exact .lock hpc hfree (by simpa using hpoison)
      · cases h
  | check i =>
      -- the second look, under the lock
      simp only [step] at h
      split at h
      · rename_i hpc
        split at h
        · rename_i hcell
          obtain rfl := Option.some.inj h
          exact .found hpc hcell
        · rename_i hcell
          obtain rfl := Option.some.inj h
          exact .missing hpc hcell
      · cases h
  | build i outcome =>
      simp only [step] at h
      split at h
      · rename_i hpc
        cases outcome with
        | built runtime =>
            obtain rfl := Option.some.inj h
            exact .built hpc
        | failed message =>
            obtain rfl := Option.some.inj h
            exact .failed hpc
        | panicked =>
            obtain rfl := Option.some.inj h
            exact .panicked hpc
      · cases h
  | publish i =>
      simp only [step] at h
      split at h
      · rename_i hpc
        split at h
        · rename_i hcell
          obtain rfl := Option.some.inj h
          exact .lost hpc hcell
        · rename_i hcell
          obtain rfl := Option.some.inj h
          exact .published hpc hcell
      · cases h
  | leave i =>
      simp only [step] at h
      split at h
      · rename_i hpc
        obtain rfl := Option.some.inj h
        exact .leave hpc
      · cases h

/-! ## The invariant -/

/-- What a thread at `pc` knows of the cell and of the log. -/
def PcInv (s : LazyRussh ι ρ) : InitPc ρ → Prop
  | .idle | .locking | .checking => True
  | .building => s.runtime = none
  | .publishing runtime => s.runtime = none ∧ s.built = [runtime]
  | .leaving (.ok runtime) => s.runtime = some runtime
  | .leaving (.error error) => error ≠ concurrentError

/-- A returned value is the published runtime, or an error other than the one of a lost
race. -/
def ReturnInv (s : LazyRussh ι ρ) : Except SshSessionError ρ → Prop
  | .ok runtime => s.runtime = some runtime
  | .error error => error ≠ concurrentError

structure LazyInv (s : LazyRussh ι ρ) : Prop where
  owner : ∀ i, (s.pc i).locked = true ↔ s.owner = some i
  healthy : s.owner ≠ none → s.poisoned = false
  threads : ∀ i, PcInv s (s.pc i)
  log : s.built = s.runtime.toList ∨ ∃ i runtime, s.pc i = .publishing runtime
  returns : ∀ entry ∈ s.returns, ReturnInv s entry.2

omit [DecidableEq ι] in
/-- Only one thread is inside the lock. -/
theorem LazyInv.alone {s : LazyRussh ι ρ} (h : LazyInv s) {i k : ι}
    (hi : (s.pc i).locked = true) (hk : k ≠ i) : (s.pc k).locked = false := by
  by_contra hlocked
  have hown : s.owner = some k := (h.owner k).mp (by simpa using hlocked)
  rw [(h.owner i).mp hi] at hown
  exact hk (Option.some.inj hown).symm

omit [DecidableEq ι] in
/-- A thread outside the lock knows nothing that could change. -/
theorem pcInv_of_unlocked {s : LazyRussh ι ρ} {pc : InitPc ρ} (h : pc.locked = false) :
    PcInv s pc := by
  cases pc with
  | idle | locking => trivial
  | checking | building | publishing | leaving => cases h

/-- What is left to show when one thread moves to `pc`. -/
theorem LazyInv.move {s s' : LazyRussh ι ρ} (h : LazyInv s) (i : ι) (pc : InitPc ρ)
    (hpc : s'.pc = Function.update s.pc i pc)
    (hself : pc.locked = true ↔ s'.owner = some i)
    (hothers : ∀ k, k ≠ i → (s'.owner = some k ↔ s.owner = some k))
    (hhealthy : s'.owner ≠ none → s'.poisoned = false)
    (hthread : PcInv s' pc) (hframe : ∀ k, k ≠ i → PcInv s' (s.pc k))
    (hlog : s'.built = s'.runtime.toList ∨ ∃ k runtime, s'.pc k = .publishing runtime)
    (hreturns : ∀ entry ∈ s'.returns, ReturnInv s' entry.2) : LazyInv s' where
  owner k := by
    -- the one that moves, and the others
    by_cases hk : k = i
    · subst hk
      rw [hpc, Function.update_self]
      exact hself
    · rw [hpc, Function.update_of_ne hk, h.owner k]
      exact (hothers k hk).symm
  healthy := hhealthy
  threads k := by
    by_cases hk : k = i
    · subst hk
      rw [hpc, Function.update_self]
      exact hthread
    · rw [hpc, Function.update_of_ne hk]
      exact hframe k hk
  log := hlog
  returns := hreturns

/-- The log after a step that neither builds nor publishes. -/
theorem LazyInv.log_goto {s : LazyRussh ι ρ} (h : LazyInv s) {i : ι} {pc : InitPc ρ}
    (hi : ∀ runtime, s.pc i ≠ .publishing runtime) :
    s.built = s.runtime.toList ∨
      ∃ k runtime, Function.update s.pc i pc k = .publishing runtime := by
  rcases h.log with hlog | ⟨k, runtime, hk⟩
  · exact .inl hlog
  · have hne : k ≠ i := by
      rintro rfl
      exact hi runtime hk
    exact .inr ⟨k, runtime, by rw [Function.update_of_ne hne, hk]⟩

/-- Each step of a caller keeps the invariant. -/
theorem lazy_step_inv :
    ∀ (s : LazyRussh ι ρ) l s', (lazyRussh ι ρ).step s l = some s' → LazyInv s → LazyInv s' := by
  intro s l s' hstep h
  -- the moving thread outside the lock, and inside it
  have hout : ∀ {i : ι}, (s.pc i).locked = false → ¬ s.owner = some i := by
    intro i hi hown
    rw [(h.owner i).mpr hown] at hi
    cases hi
  have hin : ∀ {i : ι}, (s.pc i).locked = true → s.owner = some i := fun hi => (h.owner _).mp hi
  cases LazyRussh.step_sound hstep with
  | @hit i runtime hpc hcell =>
      have hun : ¬ s.owner = some i := hout (by rw [hpc]; rfl)
      refine h.move i .idle rfl ?_ (fun _ _ => Iff.rfl) h.healthy trivial
        (fun k _ => h.threads k) (h.log_goto (by simp [hpc])) ?_
      · exact ⟨(nomatch ·), (absurd · hun)⟩
      · intro entry hentry
        rcases List.mem_append.mp hentry with hold | hnew
        · exact h.returns entry hold
        · rw [List.mem_singleton.mp hnew]
          exact hcell
  | @miss i hpc hcell =>
      have hun : ¬ s.owner = some i := hout (by rw [hpc]; rfl)
      refine h.move i .locking rfl ?_ (fun _ _ => Iff.rfl) h.healthy trivial
        (fun k _ => h.threads k) (h.log_goto (by simp [hpc])) h.returns
      exact ⟨(nomatch ·), (absurd · hun)⟩
  | @refuse i hpc hfree hpoison =>
      have hun : ¬ s.owner = some i := hout (by rw [hpc]; rfl)
      refine h.move i .idle rfl ?_ (fun _ _ => Iff.rfl) h.healthy trivial
        (fun k _ => h.threads k) (h.log_goto (by simp [hpc])) ?_
      · exact ⟨(nomatch ·), (absurd · hun)⟩
      · intro entry hentry
        rcases List.mem_append.mp hentry with hold | hnew
        · exact h.returns entry hold
        · rw [List.mem_singleton.mp hnew]
          simp [ReturnInv, poisonedError, concurrentError]
  | @lock i hpc hfree hpoison =>
      refine h.move i .checking rfl ?_ ?_ (fun _ => hpoison) trivial
        (fun k _ => h.threads k) (h.log_goto (by simp [hpc])) h.returns
      · exact ⟨fun _ => rfl, fun _ => rfl⟩
      · intro k hk
        constructor
        · intro hc
          exact absurd (Option.some.inj hc).symm hk
        · intro hc
          rw [hfree] at hc
          cases hc
  | @found i runtime hpc hcell =>
      have hown := hin (i := i) (by rw [hpc]; rfl)
      exact h.move i (.leaving (.ok runtime)) rfl ⟨fun _ => hown, fun _ => rfl⟩
        (fun _ _ => Iff.rfl) h.healthy hcell (fun k _ => h.threads k)
        (h.log_goto (by simp [hpc])) h.returns
  | @missing i hpc hcell =>
      have hown := hin (i := i) (by rw [hpc]; rfl)
      exact h.move i .building rfl ⟨fun _ => hown, fun _ => rfl⟩
        (fun _ _ => Iff.rfl) h.healthy hcell (fun k _ => h.threads k)
        (h.log_goto (by simp [hpc])) h.returns
  | @built i runtime hpc =>
      have hlocked : (s.pc i).locked = true := by rw [hpc]; rfl
      have hcell : s.runtime = none := by
        have := h.threads i
        rw [hpc] at this
        exact this
      -- the log was empty: nobody else is publishing
      have hnone : s.built = [] := by
        rcases h.log with hlog | ⟨k, other, hk⟩
        · rw [hlog, hcell]
          rfl
        · have hne : k ≠ i := by
            rintro rfl
            rw [hpc] at hk
            cases hk
          have := h.alone hlocked hne
          rw [hk] at this
          cases this
      refine h.move i (.publishing runtime) rfl ⟨fun _ => hin hlocked, fun _ => rfl⟩
        (fun _ _ => Iff.rfl) h.healthy ⟨hcell, by simp [hnone]⟩
        (fun k hk => pcInv_of_unlocked (h.alone hlocked hk)) ?_ h.returns
      exact .inr ⟨i, runtime, Function.update_self ..⟩
  | @failed i message hpc =>
      have hown := hin (i := i) (by rw [hpc]; rfl)
      refine h.move i (.leaving (.error (creationError message))) rfl
        ⟨fun _ => hown, fun _ => rfl⟩ (fun _ _ => Iff.rfl) h.healthy ?_ (fun k _ => h.threads k)
        (h.log_goto (by simp [hpc])) h.returns
      exact creationError_ne message
  | @panicked i hpc =>
      have hlocked : (s.pc i).locked = true := by rw [hpc]; rfl
      refine h.move i .idle rfl ⟨(nomatch ·), (nomatch ·)⟩ ?_
        (fun hc => absurd rfl hc) trivial (fun k _ => h.threads k)
        (h.log_goto (by simp [hpc])) h.returns
      intro k hk
      constructor
      · intro hc
        cases hc
      · intro hc
        rw [hin hlocked] at hc
        exact absurd (Option.some.inj hc).symm hk
  | @lost i runtime other hpc hcell =>
      -- nobody publishes while this thread has the lock
      have hthread := h.threads i
      rw [hpc] at hthread
      rw [hthread.1] at hcell
      cases hcell
  | @published i runtime hpc hcell =>
      have hlocked : (s.pc i).locked = true := by rw [hpc]; rfl
      have hthread := h.threads i
      rw [hpc] at hthread
      refine h.move i (.leaving (.ok runtime)) rfl
        ⟨fun _ => hin hlocked, fun _ => rfl⟩ (fun _ _ => Iff.rfl) h.healthy rfl
        (fun k hk => pcInv_of_unlocked (h.alone hlocked hk)) (.inl hthread.2) ?_
      intro entry hentry
      have hold := h.returns entry hentry
      rcases entry with ⟨k, result⟩
      cases result with
      | ok other =>
          -- an earlier success would have filled the cell
          rw [ReturnInv, hcell] at hold
          cases hold
      | error error => exact hold
  | @leave i result hpc =>
      have hlocked : (s.pc i).locked = true := by rw [hpc]; rfl
      have hthread := h.threads i
      rw [hpc] at hthread
      refine h.move i .idle rfl ⟨(nomatch ·), (nomatch ·)⟩ ?_
        (fun hc => absurd rfl hc) trivial (fun k _ => h.threads k)
        (h.log_goto (by simp [hpc])) ?_
      · intro k hk
        constructor
        · intro hc
          cases hc
        · intro hc
          rw [hin hlocked] at hc
          exact absurd (Option.some.inj hc).symm hk
      · intro entry hentry
        rcases List.mem_append.mp hentry with hold | hnew
        · exact h.returns entry hold
        · rw [List.mem_singleton.mp hnew]
          cases result <;> exact hthread

omit [DecidableEq ι] in
theorem lazy_inv_init : LazyInv ({} : LazyRussh ι ρ) where
  owner _ := ⟨(nomatch ·), (nomatch ·)⟩
  healthy h := absurd rfl h
  threads _ := trivial
  log := .inl rfl
  returns _ h := absurd h List.not_mem_nil

/-! ## One runtime -/

/-- A thread that finds the lock free and healthy and the cell empty builds and publishes
a runtime of its own. -/
theorem fresh_call_succeeds {s : LazyRussh ι ρ} {i : ι} (hidle : s.pc i = .idle)
    (hcell : s.runtime = none) (hfree : s.owner = none) (hhealthy : s.poisoned = false)
    (runtime : ρ) :
    ∃ trace s', (lazyRussh ι ρ).run s trace = some s' ∧ (i, .ok runtime) ∈ s'.returns := by
  refine ⟨[.get i, .lock i, .check i, .build i (.built runtime), .publish i, .leave i], ?_⟩
  simp [Machine.run, lazyRussh, LazyRussh.step, hidle, hcell, hfree, hhealthy, LazyRussh.goto,
    LazyRussh.answer]

/-- After a failed construction the cell is empty, and a later call of any thread that is
not inside one may succeed with any runtime. -/
theorem failed_build_retries {s s' : LazyRussh ι ρ} (h : LazyInv s) {i : ι} {message : String}
    (hstep : (lazyRussh ι ρ).step s (.build i (.failed message)) = some s') :
    s'.runtime = none ∧
      ∀ k runtime, k = i ∨ s'.pc k = .idle →
        ∃ trace s'', (lazyRussh ι ρ).run s' trace = some s'' ∧ (k, .ok runtime) ∈ s''.returns := by
  cases LazyRussh.step_sound hstep with
  | failed hpc =>
      have hthread := h.threads i
      rw [hpc] at hthread
      have hown : s.owner = some i := (h.owner i).mp (by rw [hpc]; rfl)
      have hhealthy : s.poisoned = false := h.healthy (by rw [hown]; simp)
      refine ⟨hthread, fun k runtime hk => ?_⟩
      -- the failing call returns first, and gives the lock back
      let t : LazyRussh ι ρ :=
        { (s.goto i (.leaving (.error (creationError message)))).answer i
            (.error (creationError message)) with owner := none }
      have hleave : (lazyRussh ι ρ).step
          (s.goto i (.leaving (.error (creationError message)))) (.leave i) = some t := by
        simp [lazyRussh, LazyRussh.step, LazyRussh.goto, t]
      have hidle : t.pc k = .idle := by
        rcases hk with rfl | hk
        · simp [t, LazyRussh.answer, LazyRussh.goto]
        · by_cases hki : k = i
          · subst hki
            simp [t, LazyRussh.answer, LazyRussh.goto]
          · simpa [t, LazyRussh.answer, LazyRussh.goto, Function.update_of_ne hki] using hk
      rcases fresh_call_succeeds (s := t) hidle hthread rfl hhealthy runtime with
        ⟨trace, s'', hrun, hmem⟩
      exact ⟨.leave i :: trace, s'', Machine.run_cons.mpr ⟨t, hleave, hrun⟩, hmem⟩

/-- At most one construction succeeds, and its runtime is what every call returns that
returns one; no race is ever lost; a failed construction can be made good later. -/
theorem get_or_try_init_once {trace : List (InitLabel ι ρ)} {s : LazyRussh ι ρ}
    (hrun : (lazyRussh ι ρ).run {} trace = some s) :
    s.built.length ≤ 1 ∧
    (∀ i runtime, (i, .ok runtime) ∈ s.returns → s.built = [runtime]) ∧
    (∀ i, (i, .error concurrentError) ∉ s.returns) ∧
    ∀ i message s', (lazyRussh ι ρ).step s (.build i (.failed message)) = some s' →
      s'.runtime = none ∧
        ∀ k runtime, k = i ∨ s'.pc k = .idle →
          ∃ trace' s'', (lazyRussh ι ρ).run s' trace' = some s'' ∧
            (k, .ok runtime) ∈ s''.returns := by
  have h : LazyInv s := Machine.run_invariant lazy_step_inv hrun lazy_inv_init
  refine ⟨?_, ?_, ?_, fun i message s' => failed_build_retries h⟩
  · rcases h.log with hlog | ⟨i, runtime, hi⟩
    · rw [hlog]
      cases s.runtime <;> simp
    · have hthread := h.threads i
      rw [hi] at hthread
      simp [hthread.2]
  · intro i runtime hmem
    -- what a call has returned is in the cell
    have hcell : s.runtime = some runtime := h.returns _ hmem
    rcases h.log with hlog | ⟨k, other, hk⟩
    · rw [hlog, hcell]
      rfl
    · have hthread := h.threads k
      rw [hk] at hthread
      rw [hthread.1] at hcell
      cases hcell
  · intro i hmem
    exact h.returns _ hmem rfl

/-- Two threads both find the cell empty; the first construction fails and the second one
serves both. -/
def racingTrace : List (InitLabel Bool Nat) :=
  [.get true, .get false, .lock true, .check true, .build true (.failed "no threads"),
    .leave true, .lock false, .check false, .build false (.built 7), .publish false, .get true,
    .leave false]

/-- The run in which two callers race. -/
theorem racingTrace_once :
    ∃ s, (lazyRussh Bool Nat).run {} racingTrace = some s ∧
      (true, .ok 7) ∈ s.returns ∧ (false, .ok 7) ∈ s.returns ∧ s.built = [7] := by
  refine ⟨_, rfl, ?_, ?_, ?_⟩
  · simp [LazyRussh.answer, LazyRussh.goto]
  · simp [LazyRussh.answer, LazyRussh.goto]
  · exact (@get_or_try_init_once Bool Nat _ racingTrace _ rfl).2.1 true 7
      (by simp [LazyRussh.answer, LazyRussh.goto])

end Rssh
