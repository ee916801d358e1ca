import Mathlib.Algebra.Ring.Nat
import Mathlib.Data.List.Basic

/-!
# Guarded machines

A machine is a state type, a label type and a partial step function: `step s l`
is the state after the action `l`, or `none` when the guard of `l` fails in `s`.
Guard and update are one executable function, so a concrete trace can be
evaluated, and every choice of the environment (a scheduler, an outcome of a
system call, a message) is part of the label.

* `run` executes a trace; a trace with a disabled label has no result.
* `run_invariant` is the induction rule: what every step keeps, every run keeps.
* `run_invariant_of` is the same rule for runs whose steps all meet a side
  condition on the state before the step.
* `allSteps_of_unmarked` goes the other way: a run that ends without a mark had all its
  steps in the side condition.
* `visits_good_iff` is the rule for a property of all states on the way.
* `length_le_rank` and `exists_quiet` are the rules for steps that lower a rank: their runs are
  bounded, and each state has one to a state where none of them is left to take.
* `Projects` is a refinement mapping with stuttering, and `Projects.run` carries
  runs of the concrete machine to runs of the abstract one.
-/

universe u v u' v'

/-- A machine over states `σ` and labels `ℓ`. -/
structure Machine (σ : Type u) (ℓ : Type v) where
  step : σ → ℓ → Option σ

namespace Machine

variable {σ : Type u} {ℓ : Type v} (M : Machine σ ℓ)

/-- Execute a trace from `s`. -/
def run : σ → List ℓ → Option σ
  | s, [] => some s
  | s, l :: ls => (M.step s l).bind fun s' => run s' ls

/-- Every step of the trace is taken in a state where `ok` holds of the label. -/
def AllSteps (ok : σ → ℓ → Prop) : σ → List ℓ → Prop
  | _, [] => True
  | s, l :: ls => ok s l ∧ ∀ s', M.step s l = some s' → AllSteps ok s' ls

instance decidableAllSteps {ok : σ → ℓ → Prop} [∀ s l, Decidable (ok s l)] :
    ∀ s ls, Decidable (M.AllSteps ok s ls)
  | _, [] => .isTrue trivial
  | s, l :: ls =>
      match h : M.step s l with
      | none => decidable_of_iff (ok s l) (by simp [AllSteps, h])
      | some t =>
          have : Decidable (M.AllSteps ok t ls) := decidableAllSteps t ls
          decidable_of_iff (ok s l ∧ M.AllSteps ok t ls) (by simp [AllSteps, h])

variable {M}

@[simp] theorem run_nil (s : σ) : M.run s [] = some s := rfl

theorem run_cons {s s' : σ} {l : ℓ} {ls : List ℓ} :
    M.run s (l :: ls) = some s' ↔ ∃ t, M.step s l = some t ∧ M.run t ls = some s' := by
  simp [run, Option.bind_eq_some_iff]

/-- A run is cut at any place. -/
theorem run_append {s s' : σ} {xs ys : List ℓ} :
    M.run s (xs ++ ys) = some s' ↔ ∃ t, M.run s xs = some t ∧ M.run t ys = some s' := by
  induction xs generalizing s with
  | nil => simp
  | cons x xs ih =>
      simp only [List.cons_append, run_cons, ih]
      constructor
      · rintro ⟨u, hu, t, hxs, hys⟩
        exact ⟨t, ⟨u, hu, hxs⟩, hys⟩
      · rintro ⟨t, ⟨u, hu, hxs⟩, hys⟩
        exact ⟨u, hu, t, hxs, hys⟩

/-- Invariant induction over whole runs. -/
theorem run_invariant {inv : σ → Prop}
    (hstep : ∀ s l s', M.step s l = some s' → inv s → inv s')
    {trace : List ℓ} {s s' : σ} (hrun : M.run s trace = some s') (hinv : inv s) : inv s' := by
  induction trace generalizing s with
  | nil =>
      simp only [run_nil, Option.some.injEq] at hrun
      exact hrun ▸ hinv
  | cons l ls ih =>
      rcases run_cons.mp hrun with ⟨t, hst, hts⟩
      exact ih hts (hstep s l t hst hinv)

/-- Invariant induction over the runs whose steps all meet `ok`. -/
theorem run_invariant_of {inv : σ → Prop} {ok : σ → ℓ → Prop}
    (hstep : ∀ s l s', ok s l → M.step s l = some s' → inv s → inv s')
    {trace : List ℓ} {s s' : σ} (hok : M.AllSteps ok s trace)
    (hrun : M.run s trace = some s') (hinv : inv s) : inv s' := by
  induction trace generalizing s with
  | nil =>
      simp only [run_nil, Option.some.injEq] at hrun
      exact hrun ▸ hinv
  | cons l ls ih =>
      rcases run_cons.mp hrun with ⟨t, hst, hts⟩
      exact ih (hok.2 t hst) hts (hstep s l t hok.1 hst hinv)

/-- When every step outside `ok` leaves a mark that later steps keep, a run that ends
without the mark had all its steps in `ok`. -/
theorem allSteps_of_unmarked {mark : σ → Prop} {ok : σ → ℓ → Prop}
    (hkeep : ∀ s l s', M.step s l = some s' → mark s → mark s')
    (hmark : ∀ s l s', M.step s l = some s' → ¬ ok s l → mark s')
    {trace : List ℓ} {s s' : σ} (hrun : M.run s trace = some s') (hclean : ¬ mark s') :
    M.AllSteps ok s trace := by
  induction trace generalizing s with
  | nil => trivial
  | cons l ls ih =>
      rcases run_cons.mp hrun with ⟨t, hst, hts⟩
      constructor
      · by_contra hnot
        exact hclean (run_invariant hkeep hts (hmark s l t hst hnot))
      · intro u hsu
        obtain rfl : t = u := Option.some.inj (hst.symm.trans hsu)
        exact ih hts

/-! ## The states on the way -/

/-- The trace passes through `t`: a part of it, from the start, ends in `t`. -/
def Visits (M : Machine σ ℓ) (s : σ) (trace : List ℓ) (t : σ) : Prop :=
  ∃ done rest, trace = done ++ rest ∧ M.run s done = some t

theorem visits_start (s : σ) (trace : List ℓ) : M.Visits s trace s :=
  ⟨[], trace, rfl, rfl⟩

theorem Visits.cons {s s' t : σ} {l : ℓ} {ls : List ℓ} (hstep : M.step s l = some s')
    (h : M.Visits s' ls t) : M.Visits s (l :: ls) t := by
  rcases h with ⟨done, rest, rfl, hrun⟩
  exact ⟨l :: done, rest, rfl, run_cons.mpr ⟨s', hstep, hrun⟩⟩

/-- What holds of the steps of a run holds of those of its first part. -/
theorem AllSteps.of_append {ok : σ → ℓ → Prop} {s : σ} {xs ys : List ℓ}
    (h : M.AllSteps ok s (xs ++ ys)) : M.AllSteps ok s xs := by
  induction xs generalizing s with
  | nil => trivial
  | cons x xs ih => exact ⟨h.1, fun s' hstep => ih (h.2 s' hstep)⟩

/-- When the side condition keeps `inv`, and every step outside it ends in a state that is not
`good`, then a run visits only good states exactly when all its steps meet the condition. -/
theorem visits_good_iff {inv good : σ → Prop} {ok : σ → ℓ → Prop}
    (hstep : ∀ s l s', ok s l → M.step s l = some s' → inv s → inv s')
    (hgood : ∀ s, inv s → good s)
    (hbad : ∀ s l s', M.step s l = some s' → ¬ ok s l → ¬ good s')
    {trace : List ℓ} {s s' : σ} (hrun : M.run s trace = some s') (hinv : inv s) :
    (∀ t, M.Visits s trace t → good t) ↔ M.AllSteps ok s trace := by
  constructor
  · intro hall
    clear hinv
    induction trace generalizing s with
    | nil => trivial
    | cons l ls ih =>
        rcases run_cons.mp hrun with ⟨t, hst, hts⟩
        constructor
        · by_contra hnot
          exact hbad s l t hst hnot (hall t (.cons hst (visits_start t ls)))
        · intro u hsu
          obtain rfl : t = u := Option.some.inj (hst.symm.trans hsu)
          exact ih hts fun v hv => hall v (.cons hst hv)
  · rintro hok t ⟨done, rest, rfl, hdone⟩
    exact hgood t (run_invariant_of hstep hok.of_append hdone hinv)

/-! ## Steps that lower a rank -/

/-- None of the labels in `own` is enabled. -/
def Quiet (M : Machine σ ℓ) (own : ℓ → Prop) (s : σ) : Prop :=
  ∀ l, own l → M.step s l = none

section Rank

variable {own : ℓ → Prop} {rank : σ → Nat}

/-- A run of steps that lower the rank is no longer than what they take off it. -/
theorem length_le_rank (hstep : ∀ s l s', own l → M.step s l = some s' → rank s' < rank s)
    {trace : List ℓ} {s s' : σ} (hown : ∀ l ∈ trace, own l) (hrun : M.run s trace = some s') :
    trace.length + rank s' ≤ rank s := by
  induction trace generalizing s with
  | nil =>
      simp only [run_nil, Option.some.injEq] at hrun
      rw [hrun, List.length_nil, Nat.zero_add]
  | cons l ls ih =>
      rcases run_cons.mp hrun with ⟨t, hst, hts⟩
      have hlower := hstep s l t (hown l List.mem_cons_self) hst
      have hrest := ih (fun l hl => hown l (List.mem_cons_of_mem _ hl)) hts
      rw [List.length_cons]
      omega

/-- Own steps can be taken until none is left, and keep what each of them keeps. -/
theorem exists_quiet {inv : σ → Prop}
    (hstep : ∀ s l s', own l → M.step s l = some s' → rank s' < rank s)
    (hkeep : ∀ s l s', own l → M.step s l = some s' → inv s → inv s') {s : σ} (hinv : inv s) :
    ∃ trace s', (∀ l ∈ trace, own l) ∧ M.run s trace = some s' ∧ inv s' ∧ M.Quiet own s' := by
  induction hrank : rank s using Nat.strong_induction_on generalizing s with
  | _ n ih =>
      by_cases hquiet : M.Quiet own s
      · refine ⟨[], s, ?_, rfl, hinv, hquiet⟩
        intro l hl
        cases hl
      · unfold Quiet at hquiet
        push Not at hquiet
        -- a step is left, and it lowers the rank
        rcases hquiet with ⟨l, hl, hstep'⟩
        rcases Option.ne_none_iff_exists'.mp hstep' with ⟨t, hst⟩
        have hlower := hstep s l t hl hst
        rcases ih (rank t) (by omega) (hkeep s l t hl hst hinv) rfl with
          ⟨ls, s', hown, hrun, hlast, hdone⟩
        refine ⟨l :: ls, s', ?_, run_cons.mpr ⟨t, hst, hrun⟩, hlast, hdone⟩
        intro l' hl'
        rcases List.mem_cons.mp hl' with rfl | hl'
        · exact hl
        · exact hown l' hl'

end Rank

/-! ## Refinement mappings -/

variable {τ : Type u'} {κ : Type v'}

/-- `f` maps every step of `M` to a step of `N`, or to a stutter when `g` hides
the label. -/
def Projects (M : Machine σ ℓ) (N : Machine τ κ) (f : σ → τ) (g : ℓ → Option κ) : Prop :=
  ∀ s l s', M.step s l = some s' →
    match g l with
    | some k => N.step (f s) k = some (f s')
    | none => f s' = f s

/-- Runs project to runs over the visible labels. -/
theorem Projects.run {N : Machine τ κ} {f : σ → τ} {g : ℓ → Option κ}
    (h : Projects M N f g) {trace : List ℓ} {s s' : σ} (hrun : M.run s trace = some s') :
    N.run (f s) (trace.filterMap g) = some (f s') := by
  induction trace generalizing s with
  | nil =>
      simp only [run_nil, Option.some.injEq] at hrun
      simp [hrun]
  | cons l ls ih =>
      rcases run_cons.mp hrun with ⟨t, hst, hts⟩
      have hproj := h s l t hst
      cases hg : g l with
      | none =>
          -- a step that is not seen below
          rw [hg] at hproj
          rw [List.filterMap_cons_none hg, ← hproj]
          exact ih hts
      | some k =>
          rw [hg] at hproj
          rw [List.filterMap_cons_some hg]
          exact run_cons.mpr ⟨f t, hproj, ih hts⟩

end Machine
