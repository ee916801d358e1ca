import Mathlib.Algebra.BigOperators.Group.List.Basic
import Mathlib.Algebra.Ring.Nat
import Mathlib.Data.List.Perm.Basic
import Mathlib.Tactic.Common

/-!
# Slots of a list

A list whose entries are changed or taken out by their index: what is in the list afterwards, as a
permutation, and what that does to a sum over the entries.
-/

namespace List

variable {α β : Type} {l : List α} {i : Nat} {a : α}

/-- A slot can be taken out of a list. -/
theorem perm_cons_eraseIdx (h : l[i]? = some a) : l.Perm (a :: l.eraseIdx i) := by
  rcases List.getElem?_eq_some_iff.mp h with ⟨hi, rfl⟩
  exact (List.getElem_cons_eraseIdx_perm hi).symm

/-- A slot that is set is taken out and put in again. -/
theorem set_perm_cons (h : l[i]? = some a) (b : α) : (l.set i b).Perm (b :: l.eraseIdx i) := by
  rcases List.getElem?_eq_some_iff.mp h with ⟨hi, -⟩
  exact List.set_perm_cons_eraseIdx hi b

/-- What an entry has, and all the others, as one permutation before and after it is changed. -/
theorem flatMap_set_perm (f : α → List β) (h : l[i]? = some a) (b : α) :
    (f a ++ (l.set i b).flatMap f).Perm (f b ++ l.flatMap f) := by
  have hset := (set_perm_cons h b).flatMap_right f
  have hold := (perm_cons_eraseIdx h).flatMap_right f
  rw [List.flatMap_cons] at hset hold
  refine (hset.append_left (f a)).trans ?_
  refine List.Perm.trans ?_ (hold.symm.append_left (f b))
  rw [← List.append_assoc, ← List.append_assoc]
  exact List.perm_append_comm.append_right _

/-- A slot that looks the same leaves the picture unchanged. -/
theorem map_set_of_eq (f : α → β) (h : l[i]? = some a) {b : α} (hb : f b = f a) :
    (l.set i b).map f = l.map f := by
  rcases List.getElem?_eq_some_iff.mp h with ⟨hi, rfl⟩
  apply List.ext_getElem?
  intro j
  rw [List.getElem?_map, List.getElem?_map, List.getElem?_set]
  split
  · next hij =>
      subst hij
      simp [hi, hb]
  · rfl

variable (f : α → Nat)

theorem sum_map_eraseIdx (h : l[i]? = some a) :
    (l.map f).sum = f a + ((l.eraseIdx i).map f).sum := by
  rw [((perm_cons_eraseIdx h).map f).sum_eq, List.map_cons, List.sum_cons]

/-- The sum with a slot that has changed. -/
theorem sum_map_set (h : l[i]? = some a) (b : α) :
    f a + ((l.set i b).map f).sum = f b + (l.map f).sum := by
  rw [((set_perm_cons h b).map f).sum_eq, sum_map_eraseIdx f h, List.map_cons, List.sum_cons]
  omega

end List
