import Rssh.Lib.Segments
import Rssh.Process.Capture

/-!
# What redaction leaves

`redact_values` replaces one secret after the other in a text that already holds the markers of
the secrets before it. As long as no secret can reach into a marker, the text is at every moment a
list of segments of the output, joined by markers, and a pass over it only cuts the segments finer.

* `windowPosition_first` and `windowPosition_none` say what the scan of `replace_all` finds.
* `replaceAll_finer` is one pass, `replaceValues_finer` all of them.
* `redact_values_leaves_no_value` is about what comes out of `redact_values`.
-/

namespace Rssh

open Segments

/-- The text between the brackets of the marker. -/
def redactedInner : List UInt8 := Text.encodeUtf8 "redacted".toList

theorem redactedText_eq_bracket : redactedText = bracket 60 62 redactedInner := by
  decide

/-- A value that can be told from a marker: not empty, without `<` and `>`, and no part of
`redacted`. -/
abbrev Redactable (value : List UInt8) : Prop := Foreign 60 62 redactedInner value

/-! ## The scan -/

/-- Where the scan stops, the needle stands for the first time. -/
theorem windowPosition_first {needle haystack : List UInt8} {index : Nat} (hne : needle ≠ [])
    (h : windowPosition needle haystack = some index) :
    haystack = haystack.take index ++ (needle ++ haystack.drop (index + needle.length)) ∧
      ¬ needle <:+: haystack.take index := by
  induction haystack generalizing index with
  | nil => simp [windowPosition, hne] at h
  | cons b rest ih =>
      unfold windowPosition at h
      split at h
      case isTrue hleads =>
        obtain rfl : 0 = index := Option.some.inj h
        obtain ⟨tail, htail⟩ := hleads
        constructor
        · rw [← htail]
          simp
        · simp [hne]
      case isFalse hnot =>
        obtain ⟨i, hi, rfl⟩ := Option.map_eq_some_iff.mp h
        obtain ⟨hrest, hfirst⟩ := ih hi
        constructor
        · have hdrop : (b :: rest).drop (i + 1 + needle.length) =
              rest.drop (i + needle.length) := by
            rw [Nat.add_right_comm, List.drop_succ_cons]
          rw [hdrop, List.take_succ_cons, List.cons_append, ← hrest]
        · intro hwithin
          rcases List.infix_cons_iff.mp hwithin with hleads | hwithin
          · exact hnot (hleads.trans (List.take_prefix (i + 1) (b :: rest)))
          · exact hfirst hwithin

theorem windowPosition_none {needle haystack : List UInt8} (hne : needle ≠ [])
    (h : windowPosition needle haystack = none) : ¬ needle <:+: haystack := by
  induction haystack with
  | nil => simpa using hne
  | cons b rest ih =>
      unfold windowPosition at h
      split at h
      case isTrue hleads => cases h
      case isFalse hnot =>
        intro hwithin
        rcases List.infix_cons_iff.mp hwithin with hleads | hwithin
        · exact hnot hleads
        · exact ih (Option.map_eq_none_iff.mp h) hwithin

/-! ## The passes -/

/-- One pass cuts the segments finer, and leaves none with the value in it. -/
theorem replaceAll_finer {value : List UInt8} (hvalue : Redactable value)
    {segments : List (List UInt8)} (hne : segments ≠ []) :
    ∃ fine, replaceAll (redactedText.intercalate segments) value redactedText hvalue.ne =
        redactedText.intercalate fine ∧
      fine ≠ [] ∧ Finer fine segments ∧ ∀ segment ∈ fine, ¬ value <:+: segment := by
  -- the pass goes on behind the occurrence it has replaced
  induction hlength : (redactedText.intercalate segments).length using Nat.strong_induction_on
    generalizing segments with
  | _ length ih =>
      rw [replaceAll]
      split
      case h_1 index hindex =>
        obtain ⟨hsplit, hfirst⟩ := windowPosition_first hvalue.ne hindex
        rw [redactedText_eq_bracket] at hsplit hfirst
        obtain ⟨front, left, right, back, rfl, hbefore, hafter⟩ :=
          split_intercalate hvalue hsplit.symm
        rw [← redactedText_eq_bracket] at hbefore hafter hfirst hsplit
        have hshort : (redactedText.intercalate (right :: back)).length < length := by
          have hpos := List.length_pos_iff.mpr hvalue.ne
          have hcut := congrArg List.length hsplit
          rw [hlength, hafter] at hcut
          simp only [List.length_append] at hcut
          omega
        obtain ⟨fine, htext, hfine, hfiner, hfree⟩ := ih _ hshort (by simp) rfl
        refine ⟨front ++ left :: fine, ?_, by simp, hfiner.cut, ?_⟩
        · have hjoin : front ++ left :: fine = (front ++ [left]) ++ fine := by simp
          rw [hafter, htext, hbefore, hjoin, intercalate_append (by simp) hfine]
        · -- the segments in front of the occurrence were scanned for it
          intro segment hmem
          have hcases : segment ∈ front ++ [left] ∨ segment ∈ fine := by simpa [or_assoc] using hmem
          rcases hcases with hmem | hmem
          · intro hwithin
            rw [hbefore] at hfirst
            exact hfirst (hwithin.trans (infix_intercalate_of_mem hmem))
          · exact hfree segment hmem
      case h_2 hnone =>
        have hnot := windowPosition_none hvalue.ne hnone
        refine ⟨segments, rfl, hne, Finer.refl segments, ?_⟩
        intro segment hmem hwithin
        exact hnot (hwithin.trans (infix_intercalate_of_mem hmem))

/-- All passes: no value is left in a segment. -/
theorem replaceValues_finer {values : List (List UInt8)}
    (hvalues : ∀ value ∈ values, Redactable value) {segments : List (List UInt8)}
    (hne : segments ≠ []) :
    ∃ fine, replaceValues (redactedText.intercalate segments) values =
        redactedText.intercalate fine ∧
      Finer fine segments ∧ ∀ value ∈ values, ∀ segment ∈ fine, ¬ value <:+: segment := by
  induction values generalizing segments with
  | nil => exact ⟨segments, rfl, Finer.refl segments, by simp⟩
  | cons value values ih =>
      have hvalue := hvalues value List.mem_cons_self
      obtain ⟨once, hpass, honce, hfiner, hfree⟩ := replaceAll_finer hvalue hne
      obtain ⟨fine, hpasses, hfinest, hrest⟩ :=
        ih (fun other hother => hvalues other (List.mem_cons_of_mem value hother)) honce
      refine ⟨fine, ?_, hfinest.trans hfiner, ?_⟩
      · rw [replaceValues, dif_neg hvalue.ne, hpass, hpasses]
      · intro other hother segment hmem
        rcases List.mem_cons.mp hother with rfl | hother
        · -- a later pass only cuts what this one has left
          obtain ⟨whole, hwhole, hwithin⟩ := hfinest.part segment hmem
          exact fun hother => hfree whole hwhole (hother.trans hwithin)
        · exact hrest other hother segment hmem

/-- After `redact_values` none of the values is left, not even across a marker, the result is
within the limit, and it is made of parts of the output in their order, of markers between them
and perhaps of the first bytes of a marker that the limit has cut. -/
theorem redact_values_leaves_no_value (bytes : List UInt8) (values : List (List UInt8))
    (hvalues : ∀ value ∈ values, Redactable value) :
    (∀ value ∈ values, ¬ value <:+: redactValues bytes values) ∧
    (redactValues bytes values).length ≤ captureLimit ∧
    ∃ segments part, redactValues bytes values = redactedText.intercalate segments ++ part ∧
      part <+: redactedText ∧ segments.flatten.Sublist bytes := by
  obtain ⟨fine, htext, hfiner, hfree⟩ := replaceValues_finer hvalues (List.cons_ne_nil bytes [])
  rw [List.intercalate_singleton] at htext
  unfold redactValues
  rw [htext]
  refine ⟨?_, List.length_take_le _ _, ?_⟩
  · intro value hmem hwithin
    have hwhole := hwithin.trans (List.take_prefix _ _).isInfix
    rw [redactedText_eq_bracket, infix_intercalate_iff (hvalues value hmem)] at hwhole
    obtain ⟨segment, hsegment, hoccurs⟩ := hwhole
    exact hfree value hmem segment hsegment hoccurs
  · obtain ⟨kept, part, hcut, -, hpart, hsublist⟩ :=
      take_intercalate redactedText fine captureLimit
    have hbytes := hfiner.ordered
    rw [List.flatten_singleton] at hbytes
    exact ⟨kept, part, hcut, hpart, hsublist.trans hbytes⟩

/-- Two values that overlap, and one that is part of both. -/
theorem redact_values_leaves_no_overlapping_value :
    let values : List (List UInt8) := [[1, 2], [2, 3], [2]]
    (∀ value ∈ values, Redactable value) ∧
      ∀ value ∈ values, ¬ value <:+: redactValues [0, 1, 2, 3, 2, 9] values := by
  have hvalues : ∀ value ∈ ([[1, 2], [2, 3], [2]] : List (List UInt8)), Redactable value := by
    intro value hmem
    simp only [List.mem_cons, List.not_mem_nil, or_false] at hmem
    rcases hmem with rfl | rfl | rfl <;> exact ⟨by decide, by decide, by decide, by decide⟩
  exact ⟨hvalues, (redact_values_leaves_no_value _ _ hvalues).1⟩

end Rssh
