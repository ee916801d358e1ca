import Mathlib.Data.List.Basic
import Mathlib.Data.List.Infix

/-!
# Segments between markers

A text made of segments that are joined by one marker, `marker.intercalate segments`. The marker
has an opening and a closing element, so that a word with neither of them, and which does not
occur inside the marker, cannot reach over one.

* `Foreign` are the words that cannot touch a marker.
* `split_intercalate`: an occurrence of such a word lies in one of the segments.
* `Finer` says that one list of segments was cut out of another; `take_intercalate` that what is
  left of the text after its first elements is of this kind, up to a part of a marker.
-/

universe u

namespace Segments

variable {α : Type u}

/-- A marker with an opening and a closing element. -/
def bracket (first last : α) (inner : List α) : List α := first :: (inner ++ [last])

/-- A word that cannot reach into a marker, and does not occur in one. -/
structure Foreign (first last : α) (inner word : List α) : Prop where
  ne : word ≠ []
  first_notMem : first ∉ word
  last_notMem : last ∉ word
  not_inner : ¬ word <:+: inner

variable {first last : α} {inner word : List α}

theorem mem_of_append_eq_bracket {before after : List α} (hne : after ≠ [])
    (h : before ++ after = bracket first last inner) : last ∈ after := by
  have hlast : (before ++ after).getLast? = some last := by
    rw [h, bracket, ← List.cons_append, List.getLast?_concat]
  rw [List.getLast?_append_of_ne_nil _ hne] at hlast
  exact List.mem_of_getLast? hlast

/-- A word that stands in the marker stands inside it. -/
theorem Foreign.not_infix_bracket (hword : Foreign first last inner word) :
    ¬ word <:+: bracket first last inner := by
  rintro ⟨before, after, h⟩
  rcases List.eq_nil_or_concat' after with rfl | ⟨rest, y, rfl⟩
  · rw [List.append_nil] at h
    exact hword.last_notMem (mem_of_append_eq_bracket hword.ne h)
  · cases before with
    | nil =>
        obtain ⟨x, tail, rfl⟩ := List.exists_cons_of_ne_nil hword.ne
        have hx : x = first := (List.cons.inj h).1
        exact hword.first_notMem (hx ▸ List.mem_cons_self)
    | cons x before =>
        have hinner : before ++ word ++ (rest ++ [y]) = inner ++ [last] := (List.cons.inj h).2
        rw [← List.append_assoc] at hinner
        obtain ⟨hrest, -⟩ := List.append_inj' hinner rfl
        exact hword.not_inner ⟨before, rest, hrest⟩

/-- An occurrence next to a marker lies in front of it or behind it. -/
theorem Foreign.split_bracket (hword : Foreign first last inner word)
    {before after left right : List α}
    (h : before ++ (word ++ after) = left ++ (bracket first last inner ++ right)) :
    (∃ rest, left = before ++ word ++ rest ∧ after = rest ++ bracket first last inner ++ right) ∨
    ∃ rest, before = left ++ bracket first last inner ++ rest ∧ right = rest ++ word ++ after := by
  rcases List.append_eq_append_iff.mp h with ⟨start, rfl, hstart⟩ | ⟨start, rfl, hstart⟩
  · rcases List.append_eq_append_iff.mp hstart with ⟨rest, rfl, hrest⟩ | ⟨tail, hsplit, htail⟩
    · exact .inl ⟨rest, by simp, by simpa using hrest⟩
    · -- what is left of the word would start the marker
      cases tail with
      | nil => exact .inl ⟨[], by simpa using hsplit.symm, by simpa using htail.symm⟩
      | cons x tail =>
          -- the word would begin inside and reach into the bracket
          have hx : first = x := (List.cons.inj htail).1
          exact absurd (hsplit ▸ by simp [hx]) hword.first_notMem
  · rcases List.append_eq_append_iff.mp hstart with ⟨rest, rfl, hrest⟩ | ⟨tail, hsplit, htail⟩
    · exact .inr ⟨rest, by simp, by simpa using hrest⟩
    · -- the word starts in the marker, where it cannot end, or with its last part
      rcases List.append_eq_append_iff.mp htail with ⟨rest, rfl, -⟩ | ⟨rest, hend, hafter⟩
      · exact absurd ⟨start, rest, by simpa using hsplit.symm⟩ hword.not_infix_bracket
      · by_cases hne : tail = []
        · subst hne
          exact .inr ⟨[], by simpa using hsplit.symm, by simpa [hend] using hafter⟩
        · -- the word would begin inside the bracket and reach out of it
          have hlast := mem_of_append_eq_bracket hne hsplit.symm
          exact absurd (hend ▸ List.mem_append_left _ hlast) hword.last_notMem

/-- An occurrence of a foreign word lies in one of the segments. -/
theorem split_intercalate (hword : Foreign first last inner word) {before after : List α}
    {segments : List (List α)}
    (h : before ++ (word ++ after) = (bracket first last inner).intercalate segments) :
    ∃ front left right back, segments = front ++ (left ++ word ++ right) :: back ∧
      before = (bracket first last inner).intercalate (front ++ [left]) ∧
      after = (bracket first last inner).intercalate (right :: back) := by
  induction segments generalizing before with
  | nil =>
      have hnil := (List.append_eq_nil_iff.mp h).2
      exact absurd (List.append_eq_nil_iff.mp hnil).1 hword.ne
  | cons segment segments ih =>
      by_cases hne : segments = []
      · subst hne
        rw [List.intercalate_singleton] at h
        exact ⟨[], before, after, [], by simp [← h], by simp, by simp⟩
      · rw [List.intercalate_cons_of_ne_nil hne, List.append_assoc] at h
        -- the word is in front of the first marker, or behind it
        rcases hword.split_bracket h with ⟨rest, rfl, rfl⟩ | ⟨rest, rfl, hrest⟩
        · refine ⟨[], before, rest, segments, rfl, by simp, ?_⟩
          rw [List.intercalate_cons_of_ne_nil hne]
        · obtain ⟨front, left, right, back, rfl, rfl, rfl⟩ := ih (by simpa using hrest.symm)
          refine ⟨segment :: front, left, right, back, rfl, ?_, rfl⟩
          rw [List.cons_append, List.intercalate_cons_of_ne_nil (by simp)]

/-- Two lists of segments have a marker between them. -/
theorem intercalate_append {marker : List α} {front back : List (List α)} (hfront : front ≠ [])
    (hback : back ≠ []) :
    marker.intercalate (front ++ back) =
      marker.intercalate front ++ marker ++ marker.intercalate back := by
  induction front with
  | nil => exact absurd rfl hfront
  | cons segment front ih =>
      by_cases hne : front = []
      · subst hne
        simp [List.intercalate_cons_of_ne_nil hback]
      · rw [List.cons_append, List.intercalate_cons_of_ne_nil (by simp [hne]), ih hne,
          List.intercalate_cons_of_ne_nil hne]
        simp

/-- Each segment occurs in the text. -/
theorem infix_intercalate_of_mem {marker segment : List α} {segments : List (List α)}
    (hmem : segment ∈ segments) : segment <:+: marker.intercalate segments := by
  induction segments with
  | nil => cases hmem
  | cons other segments ih =>
      by_cases hne : segments = []
      · subst hne
        obtain rfl := List.mem_singleton.mp hmem
        rw [List.intercalate_singleton]
      · rw [List.intercalate_cons_of_ne_nil hne]
        rcases List.mem_cons.mp hmem with rfl | hmem
        · rw [List.append_assoc]
          exact (List.prefix_append _ _).isInfix
        · exact (ih hmem).trans (List.suffix_append _ _).isInfix

/-- A foreign word occurs in the text when it occurs in a segment. -/
theorem infix_intercalate_iff (hword : Foreign first last inner word)
    {segments : List (List α)} :
    word <:+: (bracket first last inner).intercalate segments ↔
      ∃ segment ∈ segments, word <:+: segment := by
  constructor
  · rintro ⟨before, after, h⟩
    rw [List.append_assoc] at h
    obtain ⟨front, left, right, back, rfl, -, -⟩ := split_intercalate hword h
    exact ⟨left ++ word ++ right, by simp, left, right, rfl⟩
  · rintro ⟨segment, hmem, hwithin⟩
    exact hwithin.trans (infix_intercalate_of_mem hmem)

/-! ## Segments cut out of segments -/

/-- What a text with the segments `coarse` can become when parts of the segments go. -/
structure Finer (fine coarse : List (List α)) : Prop where
  ordered : fine.flatten.Sublist coarse.flatten
  part : ∀ segment ∈ fine, ∃ whole ∈ coarse, segment <:+: whole

theorem Finer.refl (segments : List (List α)) : Finer segments segments where
  ordered := List.Sublist.refl _
  part segment hmem := ⟨segment, hmem, List.infix_rfl⟩

theorem Finer.trans {fine middle coarse : List (List α)} (hfine : Finer fine middle)
    (hcoarse : Finer middle coarse) : Finer fine coarse where
  ordered := hfine.ordered.trans hcoarse.ordered
  part segment hmem := by
    obtain ⟨part, hpart, hsegment⟩ := hfine.part segment hmem
    obtain ⟨whole, hwhole, hwithin⟩ := hcoarse.part part hpart
    exact ⟨whole, hwhole, hsegment.trans hwithin⟩

/-- A word is cut out of a segment, and what stands behind it is cut further. -/
theorem Finer.cut {front back fine : List (List α)} {left word right : List α}
    (hfine : Finer fine (right :: back)) :
    Finer (front ++ left :: fine) (front ++ (left ++ word ++ right) :: back) where
  ordered := by
    have hrest : (left ++ fine.flatten).Sublist (left ++ word ++ right ++ back.flatten) := by
      have hword := (List.sublist_append_right word (right ++ back.flatten))
      simpa using (List.Sublist.refl left).append (hfine.ordered.trans hword)
    simpa using (List.Sublist.refl front.flatten).append hrest
  part segment hmem := by
    rcases List.mem_append.mp hmem with hmem | hmem
    · exact ⟨segment, by simp [hmem], List.infix_rfl⟩
    · rcases List.mem_cons.mp hmem with rfl | hmem
      · exact ⟨segment ++ word ++ right, by simp, [], word ++ right, by simp⟩
      · obtain ⟨whole, hwhole, hwithin⟩ := hfine.part segment hmem
        rcases List.mem_cons.mp hwhole with rfl | hwhole
        · exact ⟨left ++ word ++ whole, by simp, hwithin.trans (List.suffix_append _ _).isInfix⟩
        · exact ⟨whole, by simp [hwhole], hwithin⟩

/-- The first elements of a text: segments, and a part of a marker. -/
theorem take_intercalate (marker : List α) (segments : List (List α)) (n : Nat) :
    ∃ kept part, (marker.intercalate segments).take n = marker.intercalate kept ++ part ∧
      kept ≠ [] ∧ part <+: marker ∧ kept.flatten.Sublist segments.flatten := by
  induction segments generalizing n with
  | nil => exact ⟨[[]], [], by simp, by simp, List.nil_prefix, by simp⟩
  | cons segment segments ih =>
      by_cases hne : segments = []
      · subst hne
        exact ⟨[segment.take n], [], by simp, by simp, List.nil_prefix,
          by simpa using List.take_sublist n segment⟩
      · rw [List.intercalate_cons_of_ne_nil hne, List.append_assoc, List.take_append]
        -- the cut is in the first segment, in the marker behind it, or later
        by_cases hsegment : n ≤ segment.length
        · refine ⟨[segment.take n], [], ?_, by simp, List.nil_prefix, ?_⟩
          · simp [Nat.sub_eq_zero_of_le hsegment]
          · simpa using (List.take_sublist n segment).trans (List.sublist_append_left _ _)
        · have htake : segment.take n = segment := List.take_of_length_le (by omega)
          by_cases hmarker : n - segment.length ≤ marker.length
          · refine ⟨[segment], marker.take (n - segment.length), ?_, by simp,
              List.take_prefix _ _, by simp⟩
            rw [htake, List.intercalate_singleton, List.take_append_of_le_length hmarker]
          · obtain ⟨kept, part, htext, hkept, hpart, hflat⟩ :=
              ih (n - segment.length - marker.length)
            refine ⟨segment :: kept, part, ?_, by simp, hpart, ?_⟩
            · rw [htake, List.take_append, List.take_of_length_le (by omega), htext,
                List.intercalate_cons_of_ne_nil hkept]
              simp
            · simpa using (List.Sublist.refl segment).append hflat

end Segments
