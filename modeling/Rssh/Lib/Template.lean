import Mathlib.Data.List.Basic

/-!
# Texts with holes

A template is a list of literal pieces and holes; rendering puts one filling into every hole.

* `HoleAt n t i` says that a hole starts at offset `i` when the filling has length `n`.
* `takeCut` and `dropCut` cut a template as `take` and `drop` cut its rendering: a cut inside a
  hole leaves a part of the filling.
* `take_append_eq_take_append_iff` compares two texts that are cut at the same place.
* `prefix_drop_append_cases` places an occurrence in a text with a separator that has no
  element in common with it.
-/

universe u

/-- A piece of a template. -/
inductive Piece (α : Type u) where
  | lit (xs : List α)
  | hole
deriving DecidableEq, Repr

namespace Template

variable {α : Type u}

/-- Put `fill` into every hole. -/
def render (fill : List α) : List (Piece α) → List α
  | [] => []
  | .lit xs :: t => xs ++ render fill t
  | .hole :: t => fill ++ render fill t

/-- A hole of the template starts at offset `i` of a rendering with a filling of length `n`. -/
def HoleAt (n : Nat) : List (Piece α) → Nat → Prop
  | [], _ => False
  | .lit xs :: t, i => xs.length ≤ i ∧ HoleAt n t (i - xs.length)
  | .hole :: t, i => i = 0 ∨ n ≤ i ∧ HoleAt n t (i - n)

/-- The length of a rendering with a filling of length `n`. -/
def length (n : Nat) : List (Piece α) → Nat
  | [] => 0
  | .lit xs :: t => xs.length + length n t
  | .hole :: t => n + length n t

/-- The first `k` elements: the pieces before the cut, and how much of the filling is left of
the hole that the cut falls into. -/
def takeCut (n : Nat) : Nat → List (Piece α) → List (Piece α) × Nat
  | _, [] => ([], 0)
  | k, .lit xs :: t =>
      if xs.length ≤ k then
        let (whole, left) := takeCut n (k - xs.length) t
        (.lit xs :: whole, left)
      else ([.lit (xs.take k)], 0)
  | k, .hole :: t =>
      if n ≤ k then
        let (whole, left) := takeCut n (k - n) t
        (.hole :: whole, left)
      else ([], k)

/-- The elements from `d` on: how much of the filling is left of the hole that the cut falls
into, and the pieces after the cut. -/
def dropCut (n : Nat) : Nat → List (Piece α) → Nat × List (Piece α)
  | _, [] => (0, [])
  | d, .lit xs :: t =>
      if xs.length ≤ d then dropCut n (d - xs.length) t else (0, .lit (xs.drop d) :: t)
  | d, .hole :: t =>
      if n ≤ d then dropCut n (d - n) t
      else if d = 0 then (0, .hole :: t)
      else (n - d, t)

variable {fill : List α} {t u : List (Piece α)} {n : Nat}

@[simp] theorem render_append : render fill (t ++ u) = render fill t ++ render fill u := by
  induction t with
  | nil => rfl
  | cons piece t ih => cases piece <;> simp [render, ih]

theorem length_render (hn : fill.length = n) (t : List (Piece α)) :
    (render fill t).length = length n t := by
  induction t with
  | nil => rfl
  | cons piece t ih => cases piece <;> simp [render, length, ih, hn]

/-- The start of a text is the start of its template, with a part of the filling that is cut. -/
theorem render_takeCut (hn : fill.length = n) (k : Nat) (t : List (Piece α)) :
    (render fill t).take k =
      render fill (takeCut n k t).1 ++ fill.take (takeCut n k t).2 := by
  induction t generalizing k with
  | nil => simp [render, takeCut]
  | cons piece t ih =>
      cases piece with
      | lit xs =>
          by_cases hk : xs.length ≤ k
          · simp [render, takeCut, hk, List.take_append, List.take_of_length_le hk, ih]
          · simp [render, takeCut, hk, List.take_append_of_le_length (Nat.le_of_not_le hk)]
      | hole =>
          by_cases hk : n ≤ k
          · have hfill : fill.length ≤ k := hn ▸ hk
            simp [render, takeCut, hk, List.take_append, List.take_of_length_le hfill, hn, ih]
          · have hfill : k ≤ fill.length := hn ▸ Nat.le_of_not_le hk
            simp [render, takeCut, hk, List.take_append_of_le_length hfill]

/-- The end of a text is the end of its template, behind a part of the filling that is cut. -/
theorem render_dropCut (hn : fill.length = n) (d : Nat) (t : List (Piece α)) :
    (render fill t).drop d =
      fill.drop (n - (dropCut n d t).1) ++ render fill (dropCut n d t).2 := by
  induction t generalizing d with
  | nil => simp [render, dropCut, ← hn]
  | cons piece t ih =>
      cases piece with
      | lit xs =>
          -- the cut is behind the literal or in it
          by_cases hd : xs.length ≤ d
          · simp [render, dropCut, hd, List.drop_append, List.drop_of_length_le hd, ih]
          · simp [render, dropCut, hd, ← hn,
              List.drop_append_of_le_length (Nat.le_of_not_le hd)]
      | hole =>
          by_cases hd : n ≤ d
          · have hfill : fill.length ≤ d := hn ▸ hd
            simp [render, dropCut, hd, List.drop_append, List.drop_of_length_le hfill, hn, ih]
          · by_cases hzero : d = 0
            · subst hzero
              simp only [dropCut, hd, if_true, if_false]
              simp [render, ← hn]
            · have hfill : d ≤ fill.length := hn ▸ Nat.le_of_not_le hd
              have hsub : n - (n - d) = d := by omega
              simp [render, dropCut, hd, hzero, hsub, List.drop_append_of_le_length hfill]

/-- The part that a cut leaves is not longer than the filling. -/
theorem takeCut_snd_le (n k : Nat) (t : List (Piece α)) : (takeCut n k t).2 ≤ n := by
  induction t generalizing k with
  | nil => exact Nat.zero_le n
  | cons piece t ih =>
      cases piece with
      | lit xs =>
          simp only [takeCut]
          split
          · exact ih _
          · exact Nat.zero_le n
      | hole =>
          simp only [takeCut]
          split
          · exact ih _
          · exact Nat.le_of_not_le ‹_›

/-- The part that a cut leaves at the end is not longer than the filling. -/
theorem dropCut_fst_le (n d : Nat) (t : List (Piece α)) : (dropCut n d t).1 ≤ n := by
  induction t generalizing d with
  | nil => exact Nat.zero_le n
  | cons piece t ih =>
      cases piece with
      | lit xs =>
          simp only [dropCut]
          split
          · exact ih _
          · exact Nat.zero_le n
      | hole =>
          simp only [dropCut]
          split
          · exact ih _
          · split
            · exact Nat.zero_le n
            · exact Nat.sub_le n d

/-- A hole that ends before the cut is a hole of the pieces before it. -/
theorem HoleAt.takeCut {i k : Nat} (h : HoleAt n t i) (hk : i + n ≤ k) :
    HoleAt n (takeCut n k t).1 i := by
  induction t generalizing i k with
  | nil => exact h.elim
  | cons piece t ih =>
      cases piece with
      | lit xs =>
          have hle : xs.length ≤ k := by
            have := h.1
            omega
          simp only [Template.takeCut, hle, if_true]
          exact ⟨h.1, ih h.2 (by have := h.1; omega)⟩
      | hole =>
          -- a hole that ends before the cut is in front of it
          have hle : n ≤ k := by omega
          simp only [Template.takeCut, hle, if_true]
          rcases h with rfl | ⟨hi, hrest⟩
          · exact .inl rfl
          · exact .inr ⟨hi, ih hrest (by omega)⟩

/-- A hole that starts after the cut is a hole of the pieces after it. -/
theorem HoleAt.dropCut {i d : Nat} (hpos : 0 < n) (h : HoleAt n t (d + i)) :
    (dropCut n d t).1 ≤ i ∧ HoleAt n (dropCut n d t).2 (i - (dropCut n d t).1) := by
  induction t generalizing d with
  | nil => exact h.elim
  | cons piece t ih =>
      cases piece with
      | lit xs =>
          by_cases hd : xs.length ≤ d
          · simp only [Template.dropCut, hd, if_true]
            refine ih ?_
            rw [← Nat.sub_add_comm hd]
            exact h.2
          · simp only [Template.dropCut, hd, if_false, Nat.zero_le, Nat.sub_zero, true_and]
            refine ⟨?_, ?_⟩
            · have := h.1
              simp only [List.length_drop]
              omega
            · have hsub : i - (xs.drop d).length = d + i - xs.length := by
                simp only [List.length_drop]
                omega
              rw [hsub]
              exact h.2
      | hole =>
          -- the hole is dropped as a whole, not at all, or in its middle
          by_cases hd : n ≤ d
          · simp only [Template.dropCut, hd, if_true]
            rcases h with hzero | ⟨-, hrest⟩
            · omega
            · refine ih ?_
              rw [← Nat.sub_add_comm hd]
              exact hrest
          · by_cases hzero : d = 0
            · subst hzero
              simp only [Template.dropCut, hd, if_true, if_false, Nat.zero_le, Nat.sub_zero,
                true_and]
              simpa using h
            · simp only [Template.dropCut, hd, hzero, if_false]
              rcases h with hsum | ⟨hle, hrest⟩
              · omega
              · refine ⟨by omega, ?_⟩
                rw [show i - (n - d) = d + i - n by omega]
                exact hrest

theorem HoleAt.append_left {i : Nat} (h : HoleAt n t i) : HoleAt n (t ++ u) i := by
  induction t generalizing i with
  | nil => exact h.elim
  | cons piece t ih =>
      cases piece with
      | lit xs => exact ⟨h.1, ih h.2⟩
      | hole => exact h.imp id fun hrest => ⟨hrest.1, ih hrest.2⟩

/-- A template in front moves the hole by its length. -/
theorem HoleAt.append_right {i : Nat} (h : HoleAt n u i) :
    HoleAt n (t ++ u) (length n t + i) := by
  induction t with
  | nil => simpa [length] using h
  | cons piece t ih =>
      cases piece with
      | lit xs =>
          refine ⟨by simp only [length]; omega, ?_⟩
          rw [show length n (.lit xs :: t) + i - xs.length = length n t + i by
            simp only [length]; omega]
          exact ih
      | hole =>
          refine .inr ⟨by simp only [length]; omega, ?_⟩
          rw [show length n (.hole :: t) + i - n = length n t + i by
            simp only [length]; omega]
          exact ih

/-- Two texts with first parts of equal length, cut at the same place. -/
theorem take_append_eq_take_append_iff {xs₁ xs₂ ys₁ ys₂ : List α} (k : Nat)
    (hlength : xs₁.length = xs₂.length) :
    (xs₁ ++ ys₁).take k = (xs₂ ++ ys₂).take k ↔
      xs₁.take k = xs₂.take k ∧ ys₁.take (k - xs₁.length) = ys₂.take (k - xs₁.length) := by
  rw [List.take_append, List.take_append, ← hlength]
  constructor
  · intro h
    exact List.append_inj h (by simp [hlength])
  · rintro ⟨hxs, hys⟩
    rw [hxs, hys]

/-- An occurrence in `xs ++ separator ++ ys` that shares no element with the separator lies in
`xs` or in `ys`. -/
theorem prefix_drop_append_cases {word xs separator ys : List α} {i : Nat} (hne : word ≠ [])
    (hseparator : separator ≠ []) (hdisjoint : ∀ a ∈ word, a ∉ separator)
    (h : word <+: (xs ++ separator ++ ys).drop i) :
    (i + word.length ≤ xs.length ∧ word <+: xs.drop i) ∨
      (xs.length + separator.length ≤ i ∧
        word <+: ys.drop (i - (xs.length + separator.length))) := by
  have hword := List.length_pos_iff.mpr hne
  have hsep := List.length_pos_iff.mpr hseparator
  -- the word ends before the separator, starts behind it, or meets it
  by_cases hleft : i + word.length ≤ xs.length
  · left
    refine ⟨hleft, ?_⟩
    rw [List.append_assoc, List.drop_append_of_le_length (by omega)] at h
    exact List.prefix_of_prefix_length_le h (List.prefix_append _ _) (by simp; omega)
  · by_cases hright : xs.length + separator.length ≤ i
    · right
      refine ⟨hright, ?_⟩
      rw [List.drop_append, List.drop_of_length_le (by simpa using hright)] at h
      simpa using h
    · -- the occurrence has an element of the separator
      exfalso
      obtain ⟨rest, hrest⟩ := h
      let p := max i xs.length
      have hget : (xs ++ separator ++ ys)[p]? = word[p - i]? := by
        have hsome := congrArg (fun l : List α => l[p - i]?) hrest
        simp only [List.getElem?_drop] at hsome
        rw [List.getElem?_append_left (by omega)] at hsome
        rw [hsome, show i + (p - i) = p by omega]
      have hp : p - i < word.length := by omega
      rw [List.append_assoc, List.getElem?_append_right (by omega),
        List.getElem?_append_left (by omega), List.getElem?_eq_getElem hp] at hget
      exact hdisjoint _ (List.getElem_mem hp) (List.mem_of_getElem? hget)

end Template
