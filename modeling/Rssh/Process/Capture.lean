import Rssh.Lib.Template
import Rssh.Lib.Text

/-!
# Child output kept for diagnostics

The test harness redirects a child's stdout and stderr into files. `read_bounded` keeps the
head and the tail of a long file around an omission marker, and `redact_values` replaces every
configured secret in what was kept. The limit cuts the output before the secrets are
searched, so a secret that a cut falls into is not found.

* `read_bounded_retains` says what is kept of a file of any length.
* `replaceAll_render`: on a text with holes in which the secret occurs only there, `replace_all`
  fills the holes.
* `keptForError_eq_iff` says exactly when what is kept is the same for two secrets.
-/

namespace Rssh

def captureLimit : Nat := 256 * 1024

def omissionReserve : Nat := 96

/-- The head `read_bounded` keeps of a file that is too long. -/
def headLimit : Nat := (captureLimit - omissionReserve) / 2

/-- The tail it keeps. -/
def tailLimit : Nat := captureLimit - omissionReserve - headLimit

/-- `format!("\n... <{omitted} bytes omitted> ...\n")`. -/
def omissionMarker (omitted : Nat) : List UInt8 :=
  Text.encodeUtf8
    ("\n... <".toList ++ Nat.toDigits 10 omitted ++ " bytes omitted> ...\n".toList)

/-- `read_bounded` of a file with this content. -/
def readBounded (content : List UInt8) : List UInt8 :=
  let total := content.length
  if total ≤ captureLimit then content
  else
    let head := content.take headLimit
    let tail := (content.drop (total - tailLimit)).take tailLimit
    let omitted := total - (head.length + tail.length)
    head ++ omissionMarker omitted ++ tail

/-! ## What is kept of a long file -/

/-- The content of a file, whose length is a `u64`. -/
structure CapturedFile where
  content : List UInt8
  length_lt : content.length < 2 ^ 64

/-- The omission line has its place in the reserve, whatever number a `u64` holds. -/
theorem length_omissionMarker_le {omitted : Nat} (h : omitted < 2 ^ 64) :
    (omissionMarker omitted).length ≤ omissionReserve := by
  have hdigits : (Nat.toDigits 10 omitted).length ≤ 20 := by
    rw [Nat.length_toDigits_le_iff (by decide) (by decide)]
    exact Nat.lt_trans h (by decide)
  have hascii : ∀ c ∈ Nat.toDigits 10 omitted, c.isDigit = true :=
    fun c hc => Nat.isDigit_of_mem_toDigits (by decide) (by decide) hc
  have hopen : (Text.encodeUtf8 "\n... <".toList).length = 6 := by decide
  have hclose : (Text.encodeUtf8 " bytes omitted> ...\n".toList).length = 20 := by decide
  have hreserve : omissionReserve = 96 := rfl
  rw [omissionMarker, Text.encodeUtf8_append, Text.encodeUtf8_append, List.length_append,
    List.length_append, hopen, hclose, Text.length_encodeUtf8_of_isDigit hascii]
  omega

/-- A long file in three parts: what `read_bounded` keeps of the start and the end, and between them
what the omission line counts. -/
theorem readBounded_of_long {content : List UInt8} (h : captureLimit < content.length) :
    ∃ head middle tail, content = head ++ middle ++ tail ∧ head.length = headLimit ∧
      tail.length = tailLimit ∧
      readBounded content = head ++ omissionMarker middle.length ++ tail := by
  have hlimits : headLimit + tailLimit ≤ captureLimit := by decide
  have hhead : (content.take headLimit).length = headLimit := by
    rw [List.length_take]
    omega
  have htail : (content.drop (content.length - tailLimit)).length = tailLimit := by
    rw [List.length_drop]
    omega
  -- what is left out, by its length
  have hmiddle : ((content.drop headLimit).take (content.length - tailLimit - headLimit)).length =
      content.length - (headLimit + tailLimit) := by
    rw [List.length_take, List.length_drop]
    omega
  refine ⟨content.take headLimit,
    (content.drop headLimit).take (content.length - tailLimit - headLimit),
    content.drop (content.length - tailLimit), ?_, hhead, htail, ?_⟩
  · have hsplit : content.drop (content.length - tailLimit) =
        (content.drop headLimit).drop (content.length - tailLimit - headLimit) := by
      have hindex : headLimit + (content.length - tailLimit - headLimit) =
          content.length - tailLimit := by
        omega
      rw [List.drop_drop, hindex]
    rw [hsplit, List.append_assoc, List.take_append_drop, List.take_append_drop]
  · rw [readBounded, if_neg (by omega)]
    dsimp only
    rw [List.take_of_length_le (Nat.le_of_eq htail), htail, hhead, hmiddle]

/-- For every captured file: at most the limit is kept; all of it if it fits, and else the first
half of what is retained, a line with the number of bytes that are in neither part, and the end. -/
theorem read_bounded_retains (file : CapturedFile) :
    (readBounded file.content).length ≤ captureLimit ∧
      (file.content.length ≤ captureLimit → readBounded file.content = file.content) ∧
      (captureLimit < file.content.length →
        ∃ head middle tail, file.content = head ++ middle ++ tail ∧
          head.length = (captureLimit - omissionReserve) / 2 ∧
          head.length + tail.length = captureLimit - omissionReserve ∧
          readBounded file.content =
            head ++ Text.encodeUtf8 ("\n... <".toList ++ Nat.toDigits 10 middle.length ++
              " bytes omitted> ...\n".toList) ++ tail) := by
  have hfits : file.content.length ≤ captureLimit → readBounded file.content = file.content := by
    intro hshort
    rw [readBounded, if_pos hshort]
  refine ⟨?_, hfits, ?_⟩
  · rcases Nat.lt_or_ge captureLimit file.content.length with hlong | hshort
    · rcases readBounded_of_long hlong with ⟨head, middle, tail, hcontent, hhead, htail, hread⟩
      have htotal := congrArg List.length hcontent
      have hlength := file.length_lt
      rw [List.length_append, List.length_append] at htotal
      -- twenty digits at most, as the length is below `2 ^ 64`
      have hmarker := @length_omissionMarker_le middle.length (by omega)
      have hlimits : headLimit + tailLimit + omissionReserve = captureLimit := by decide
      rw [hread, List.length_append, List.length_append]
      omega
    · rw [hfits hshort]
      exact hshort
  · intro hlong
    rcases readBounded_of_long hlong with ⟨head, middle, tail, hcontent, hhead, htail, hread⟩
    have hretained : headLimit + tailLimit = captureLimit - omissionReserve := by decide
    exact ⟨head, middle, tail, hcontent, hhead, by omega, hread⟩

/-- A file that is 100 bytes longer than the limit. -/
def longFile : CapturedFile where
  content := List.replicate (captureLimit + 100) 120
  length_lt := by
    rw [List.length_replicate]
    decide

/-- The reserve is left out with the 100 bytes; the omission line takes some of it. -/
theorem read_bounded_retains_longFile :
    (readBounded longFile.content).length ≤ captureLimit ∧
      ∃ head middle tail, longFile.content = head ++ middle ++ tail ∧ middle.length = 196 ∧
        readBounded longFile.content =
          head ++ Text.encodeUtf8 "\n... <196 bytes omitted> ...\n".toList ++ tail := by
  have hlength : longFile.content.length = captureLimit + 100 := List.length_replicate
  rcases read_bounded_retains longFile with ⟨hlimit, -, hlong⟩
  rcases hlong (by omega) with ⟨head, middle, tail, hcontent, -, hretained, hread⟩
  have htotal := congrArg List.length hcontent
  rw [List.length_append, List.length_append, hlength] at htotal
  have hreserve : omissionReserve = 96 ∧ omissionReserve ≤ captureLimit := by decide
  have hmiddle : middle.length = 196 := by omega
  refine ⟨hlimit, head, middle, tail, hcontent, hmiddle, ?_⟩
  rw [hread, hmiddle]
  rfl

/-! ## Replacing secrets -/

/-- `haystack.windows(needle.len()).position(|candidate| candidate == needle)`. -/
def windowPosition (needle : List UInt8) : List UInt8 → Option Nat
  | [] => if needle = [] then some 0 else none
  | b :: rest =>
      if needle <+: b :: rest then some 0 else (windowPosition needle rest).map (· + 1)

/-- An occurrence begins inside the text. -/
theorem windowPosition_lt {needle : List UInt8} (hne : needle ≠ []) :
    ∀ {haystack : List UInt8} {index : Nat}, windowPosition needle haystack = some index →
      index < haystack.length
  | [], index, h => by simp [windowPosition, hne] at h
  | b :: rest, index, h => by
      rw [windowPosition] at h
      split at h
      · obtain rfl : 0 = index := Option.some.inj h
        simp
      · rcases Option.map_eq_some_iff.mp h with ⟨i, hi, rfl⟩
        have := windowPosition_lt hne hi
        simp only [List.length_cons]
        omega

/-- `replace_all`. `windows` wants a needle that is not empty, which `redact_values` sees to. -/
def replaceAll (haystack needle replacement : List UInt8) (hne : needle ≠ []) : List UInt8 :=
  match _h : windowPosition needle haystack with
  | some index =>
      haystack.take index ++ replacement ++
        replaceAll (haystack.drop (index + needle.length)) needle replacement hne
  | none => haystack
termination_by haystack.length
decreasing_by
  have := windowPosition_lt hne _h
  have := List.length_pos_iff.mpr hne
  simp only [List.length_drop]
  omega

/-- The text that stands for a secret. -/
def redactedText : List UInt8 := Text.encodeUtf8 "<redacted>".toList

/-- The loop of `redact_values` over the secrets. -/
def replaceValues : List UInt8 → List (List UInt8) → List UInt8
  | bytes, [] => bytes
  | bytes, redaction :: redactions =>
      if hne : redaction = [] then replaceValues bytes redactions
      else replaceValues (replaceAll bytes redaction redactedText hne) redactions

/-- `redact_values`. -/
def redactValues (bytes : List UInt8) (redactions : List (List UInt8)) : List UInt8 :=
  (replaceValues bytes redactions).take captureLimit

/-! ## Replacing a secret that occurs only in the holes -/

open Template

variable {needle replacement : List UInt8} (hne : needle ≠ [])

/-- An empty text stays empty. -/
theorem replaceAll_nil : replaceAll [] needle replacement hne = [] := by
  rw [replaceAll]
  split
  · rename_i hindex
    simp [windowPosition, hne] at hindex
  · rfl

/-- An occurrence at the start is replaced. -/
theorem replaceAll_append (haystack : List UInt8) :
    replaceAll (needle ++ haystack) needle replacement hne =
      replacement ++ replaceAll haystack needle replacement hne := by
  have hposition : windowPosition needle (needle ++ haystack) = some 0 := by
    cases needle with
    | nil => exact absurd rfl hne
    | cons b rest =>
        rw [List.cons_append, windowPosition, if_pos]
        exact List.prefix_append (b :: rest) haystack
  rw [replaceAll]
  split
  · rename_i index hindex
    obtain rfl : 0 = index := Option.some.inj (hposition.symm.trans hindex)
    simp
  · rename_i hnone
    simp [hposition] at hnone

/-- A byte at which no occurrence begins stays. -/
theorem replaceAll_cons {b : UInt8} {haystack : List UInt8} (hnot : ¬ needle <+: b :: haystack) :
    replaceAll (b :: haystack) needle replacement hne =
      b :: replaceAll haystack needle replacement hne := by
  have hposition : windowPosition needle (b :: haystack) =
      (windowPosition needle haystack).map (· + 1) := by
    rw [windowPosition, if_neg hnot]
  rw [replaceAll, replaceAll]
  split
  · rename_i index hindex
    rw [hposition] at hindex
    -- the first occurrence is one of the rest
    rcases Option.map_eq_some_iff.mp hindex with ⟨i, hi, rfl⟩
    split
    · rename_i j hj
      obtain rfl : i = j := Option.some.inj (hi.symm.trans hj)
      simp [Nat.add_right_comm i 1]
    · rename_i hnone
      simp [hi] at hnone
  · rename_i hindex
    rw [hposition, Option.map_eq_none_iff] at hindex
    split
    · rename_i hsome
      simp [hindex] at hsome
    · rfl

/-- Where the needle occurs only in the holes, every hole gets the replacement. -/
theorem replaceAll_render (t : List (Piece UInt8))
    (honly : ∀ i, needle <+: (render needle t).drop i → HoleAt needle.length t i) :
    replaceAll (render needle t) needle replacement hne = render replacement t := by
  have hpos := List.length_pos_iff.mpr hne
  induction t with
  | nil => exact replaceAll_nil hne
  | cons piece t ih =>
      cases piece with
      | lit xs =>
          -- the bytes of a literal are copied one by one
          induction xs with
          | nil =>
              refine ih fun i hi => ?_
              simpa [HoleAt] using honly i hi
          | cons x xs ihxs =>
              have hnot : ¬ needle <+: x :: render needle (.lit xs :: t) := by
                intro hprefix
                exact absurd (honly 0 hprefix).1 (by simp)
              show replaceAll (x :: render needle (.lit xs :: t)) _ _ _ = _
              rw [replaceAll_cons hne hnot, ihxs]
              · rfl
              · intro i hi
                have hhole := honly (i + 1) hi
                simp only [HoleAt, List.length_cons] at hhole ⊢
                refine ⟨by omega, ?_⟩
                rw [show i - xs.length = i + 1 - (xs.length + 1) by omega]
                exact hhole.2
      | hole =>
          show replaceAll (needle ++ render needle t) _ _ _ = _
          rw [replaceAll_append, ih]
          · rfl
          · intro i hi
            have hdrop : (render needle (.hole :: t)).drop (needle.length + i) =
                (render needle t).drop i := List.drop_length_add_append i
            have hhole := honly (needle.length + i) (hdrop ▸ hi)
            rcases hhole with hzero | ⟨-, hrest⟩
            · omega
            · simpa using hrest

/-! ## What an error keeps of an output with a secret -/

/-- The bytes kept for an error of a child that printed this text with the secret in its
holes. -/
def keptForError (t : List (Piece UInt8)) (secret : List UInt8) : List UInt8 :=
  redactValues (readBounded (render secret t)) [secret]

/-- The number of bytes `read_bounded` leaves out. -/
def omittedBytes (total : Nat) : Nat := total - (headLimit + tailLimit)

/-- The secret has no byte of the omission marker, and occurs in the output only in the
holes. -/
structure Fills (t : List (Piece UInt8)) (secret : List UInt8) : Prop where
  noMarker : ∀ b ∈ secret, b ∉ omissionMarker (omittedBytes (Template.length secret.length t))
  onlyHoles : ∀ i, secret <+: (render secret t).drop i → HoleAt secret.length t i

/-- The template before the head cut, and how many bytes of a secret of length `n` the cut
leaves at the end of the head. -/
def headCut (n : Nat) (t : List (Piece UInt8)) : List (Piece UInt8) × Nat :=
  takeCut n headLimit t

/-- How many bytes of a secret of length `n` the tail cut leaves at the start of the tail, and
the template after it. -/
def tailCut (n : Nat) (t : List (Piece UInt8)) : Nat × List (Piece UInt8) :=
  dropCut n (Template.length n t - tailLimit) t

theorem omissionMarker_ne_nil (omitted : Nat) : omissionMarker omitted ≠ [] := by
  simp [omissionMarker, Text.encodeUtf8, String.utf8EncodeChar]

variable {t : List (Piece UInt8)} {secret : List UInt8}

/-- What `read_bounded` keeps, as a template: of a long output the head and the tail, where a
cut inside a hole leaves a part of the secret. -/
def keptTemplate (t : List (Piece UInt8)) (secret : List UInt8) : List (Piece UInt8) :=
  if Template.length secret.length t ≤ captureLimit then t
  else
    (headCut secret.length t).1 ++
      .lit (secret.take (headCut secret.length t).2 ++
        omissionMarker (omittedBytes (Template.length secret.length t)) ++
        secret.drop (secret.length - (tailCut secret.length t).1)) ::
      (tailCut secret.length t).2

theorem take_headLimit (t : List (Piece UInt8)) (secret : List UInt8) :
    (render secret t).take headLimit =
      render secret (headCut secret.length t).1 ++ secret.take (headCut secret.length t).2 :=
  render_takeCut rfl headLimit t

theorem drop_tailLimit (t : List (Piece UInt8)) (secret : List UInt8) :
    (render secret t).drop (Template.length secret.length t - tailLimit) =
      secret.drop (secret.length - (tailCut secret.length t).1) ++
        render secret (tailCut secret.length t).2 :=
  render_dropCut rfl _ t

/-- A long text keeps its head and its tail, around the marker. -/
theorem readBounded_of_gt (h : captureLimit < Template.length secret.length t) :
    readBounded (render secret t) =
      (render secret t).take headLimit ++
        omissionMarker (omittedBytes (Template.length secret.length t)) ++
        (render secret t).drop (Template.length secret.length t - tailLimit) := by
  have htotal := length_render (rfl : secret.length = secret.length) t
  have hlimits : headLimit ≤ captureLimit ∧ tailLimit ≤ captureLimit := by decide
  have hhead : ((render secret t).take headLimit).length = headLimit := by
    rw [List.length_take, htotal]
    omega
  have hdrop : ((render secret t).drop (Template.length secret.length t - tailLimit)).length =
      tailLimit := by
    rw [List.length_drop, htotal]
    omega
  rw [readBounded, htotal, if_neg (by omega)]
  dsimp only
  rw [List.take_of_length_le (Nat.le_of_eq hdrop), hdrop, hhead]
  rfl

/-- What is kept of a text with holes is a text with holes. -/
theorem readBounded_render (t : List (Piece UInt8)) (secret : List UInt8) :
    readBounded (render secret t) = render secret (keptTemplate t secret) := by
  by_cases hlong : Template.length secret.length t ≤ captureLimit
  · rw [readBounded, length_render rfl, if_pos hlong, keptTemplate, if_pos hlong]
  · rw [readBounded_of_gt (Nat.lt_of_not_le hlong), take_headLimit, drop_tailLimit, keptTemplate,
      if_neg hlong]
    simp [render]

/-- The kept part has the secret only in its holes. -/
theorem Fills.onlyHoles_kept (h : Fills t secret) (hne : secret ≠ []) (i : Nat)
    (hi : secret <+: (render secret (keptTemplate t secret)).drop i) :
    HoleAt secret.length (keptTemplate t secret) i := by
  rw [← readBounded_render] at hi
  by_cases hlong : Template.length secret.length t ≤ captureLimit
  · rw [readBounded_render] at hi
    rw [keptTemplate, if_pos hlong] at hi ⊢
    exact h.onlyHoles i hi
  · rw [readBounded_of_gt (Nat.lt_of_not_le hlong)] at hi
    rw [keptTemplate, if_neg hlong]
    rcases prefix_drop_append_cases hne (omissionMarker_ne_nil _) h.noMarker hi with
      ⟨hbound, hhead⟩ | ⟨hbound, htail⟩
    · -- in the head, where an occurrence is one of the text
      have hle : i + secret.length ≤ headLimit := by
        simp only [List.length_take] at hbound
        omega
      have hocc : secret <+: (render secret t).drop i := by
        rw [List.drop_take] at hhead
        exact hhead.trans (List.take_prefix _ _)
      exact ((h.onlyHoles i hocc).takeCut hle).append_left
    · -- in the tail
      rw [List.drop_drop] at htail
      have hpart : (tailCut secret.length t).1 ≤ secret.length := dropCut_fst_le _ _ t
      -- and so is one behind it
      obtain ⟨hcut, hhole⟩ := (h.onlyHoles _ htail).dropCut (List.length_pos_iff.mpr hne)
      rw [take_headLimit, List.length_append, length_render rfl] at hbound hcut hhole
      change (tailCut secret.length t).1 ≤ _ at hcut
      change HoleAt _ (tailCut secret.length t).2 (_ - (tailCut secret.length t).1) at hhole
      obtain ⟨k, rfl⟩ := Nat.exists_eq_add_of_le
        (Nat.le_trans (Nat.le_add_right _ _) (Nat.le_trans (Nat.le_add_right _ _) hbound))
      refine HoleAt.append_right ⟨?_, ?_⟩
      · simp only [List.length_append, List.length_drop]
        omega
      · convert hhole using 1
        simp only [List.length_append, List.length_drop]
        omega

/-- What an error keeps: the template of `read_bounded` with the marker in every hole. -/
theorem Fills.keptForError_eq (h : Fills t secret) (hne : secret ≠ []) :
    keptForError t secret =
      (render redactedText (keptTemplate t secret)).take captureLimit := by
  simp only [keptForError, redactValues, replaceValues, hne, dite_false]
  rw [readBounded_render, replaceAll_render hne _ (h.onlyHoles_kept hne)]

/-! ## Two secrets -/

/-- The two secrets agree on what the cuts leave of them: on the bytes at the end of the head
and at the start of the tail, as far as they lie below the limit after the replacement. -/
def AgreeOnCuts (t : List (Piece UInt8)) (first second : List UInt8) : Prop :=
  let n := first.length
  let head := (render redactedText (headCut n t).1).length
  let between := (headCut n t).2 + (omissionMarker (omittedBytes (Template.length n t))).length
  (first.take (headCut n t).2).take (captureLimit - head) =
      (second.take (headCut n t).2).take (captureLimit - head) ∧
    (first.drop (n - (tailCut n t).1)).take (captureLimit - head - between) =
      (second.drop (n - (tailCut n t).1)).take (captureLimit - head - between)

/-- What is kept of a long text, when the holes outside the cuts are filled anew. -/
theorem render_keptTemplate_of_gt (fill : List UInt8)
    (hlong : captureLimit < Template.length secret.length t) :
    render fill (keptTemplate t secret) =
      render fill (headCut secret.length t).1 ++ (secret.take (headCut secret.length t).2 ++
        (omissionMarker (omittedBytes (Template.length secret.length t)) ++
        (secret.drop (secret.length - (tailCut secret.length t).1) ++
          render fill (tailCut secret.length t).2))) := by
  rw [keptTemplate, if_neg (Nat.not_le.mpr hlong)]
  simp [render]

/-- Of an output that is too long, what an error keeps is the same for two secrets exactly when
they agree on what the cuts leave of them. -/
theorem Fills.keptForError_eq_iff_of_gt {first second : List UInt8}
    (hlength : first.length = second.length) (hne : first ≠ []) (hfirst : Fills t first)
    (hsecond : Fills t second) (hgt : captureLimit < Template.length first.length t) :
    keptForError t first = keptForError t second ↔ AgreeOnCuts t first second := by
  have hne' : second ≠ [] := by
    intro hnil
    rw [hnil] at hlength
    exact hne (List.length_eq_zero_iff.mp hlength)
  have hhead : (first.take (headCut first.length t).2).length = (headCut first.length t).2 :=
    List.length_take_of_le (takeCut_snd_le _ _ t)
  rw [hfirst.keptForError_eq hne, hsecond.keptForError_eq hne',
    render_keptTemplate_of_gt _ hgt, render_keptTemplate_of_gt _ (hlength ▸ hgt), ← hlength]
  -- the pieces in order: head, rest of the first cut, marker, rest of the second cut, tail
  rw [take_append_eq_take_append_iff _ rfl,
    take_append_eq_take_append_iff _ (by simp [hlength]),
    take_append_eq_take_append_iff _ rfl,
    take_append_eq_take_append_iff _ (by simp [hlength]), hhead]
  simp only [true_and, and_true, AgreeOnCuts, Nat.sub_sub, Nat.add_assoc]

/-- An output with one secret. -/
def oneSecret (before after : List UInt8) : List (Piece UInt8) :=
  [.lit before, .hole, .lit after]

section CutAtHead

-- a long output whose head cut falls between the two bytes of a secret
variable {before after : List UInt8} (hbefore : before.length = headLimit - 1)
  (hafter : after.length = captureLimit)

include hbefore hafter

theorem length_oneSecret : Template.length 2 (oneSecret before after) = 393169 := by
  simp only [oneSecret, Template.length, hbefore, hafter]
  decide

omit hafter in
theorem headCut_oneSecret : headCut 2 (oneSecret before after) = ([.lit before], 1) := by
  have hlit : headLimit - 1 ≤ headLimit := by decide
  have hleft : headLimit - (headLimit - 1) = 1 := by decide
  have hcut : ¬ 2 ≤ 1 := by decide
  simp only [headCut, oneSecret, takeCut, hbefore, hlit, hleft, hcut, if_true, if_false]

/-- The tail begins behind the secret. -/
theorem tailCut_oneSecret : (tailCut 2 (oneSecret before after)).1 = 0 := by
  have hlit : headLimit - 1 ≤ 393169 - tailLimit := by decide
  have hhole : 2 ≤ 393169 - tailLimit - (headLimit - 1) := by decide
  have hlast : ¬ captureLimit ≤ 393169 - tailLimit - (headLimit - 1) - 2 := by decide
  rw [tailCut, length_oneSecret hbefore hafter]
  simp only [oneSecret, dropCut, hbefore, hafter, hlit, hhole, hlast, if_true, if_false]

/-- The cuts show the first byte of the secret. -/
theorem agreeOnCuts_oneSecret {x₁ y₁ x₂ y₂ : UInt8} :
    AgreeOnCuts (oneSecret before after) [x₁, y₁] [x₂, y₂] ↔ x₁ = x₂ := by
  have hroom : ∃ k, captureLimit - (headLimit - 1) = k + 1 := ⟨131120, by decide⟩
  rcases hroom with ⟨k, hk⟩
  simp [AgreeOnCuts, headCut_oneSecret hbefore, tailCut_oneSecret hbefore hafter, render,
    hbefore, hk]

/-- The secrets of two bytes that fill the output. -/
theorem fills_oneSecret {x y : UInt8} (hxy : x ≠ y) (hfirst : x ∉ before) (hlast : x ∉ after)
    (hmarker : ∀ b ∈ [x, y], b ∉ omissionMarker 131121) :
    Fills (oneSecret before after) [x, y] where
  noMarker := by
    have homitted : omittedBytes 393169 = 131121 := by decide
    show ∀ b ∈ [x, y], b ∉ omissionMarker (omittedBytes (Template.length 2 _))
    rw [length_oneSecret hbefore hafter, homitted]
    exact hmarker
  onlyHoles i hi := by
    -- an occurrence begins with the first byte of the secret
    have hget : (render [x, y] (oneSecret before after))[i]? = some x := by
      rcases hi with ⟨rest, hrest⟩
      have hzero := congrArg (fun l : List UInt8 => l[0]?) hrest
      simpa using hzero.symm
    simp only [oneSecret, render, HoleAt] at hget ⊢
    -- which stands nowhere else
    by_cases hlit : i < before.length
    · rw [List.getElem?_append_left hlit] at hget
      exact absurd (List.mem_of_getElem? hget) hfirst
    · refine ⟨Nat.le_of_not_lt hlit, ?_⟩
      rw [List.getElem?_append_right (Nat.le_of_not_lt hlit)] at hget
      generalize i - before.length = k at hget ⊢
      rcases k with _ | _ | k
      · exact .inl rfl
      · exact absurd (by simpa using hget.symm) hxy
      · have hrest : after[k]? = some x := by simpa using hget
        exact absurd (List.mem_of_getElem? hrest) hlast

end CutAtHead

/-- What an error keeps is the same for two secrets of equal length exactly when nothing was
cut out of the output or the secrets agree on what the cuts leave of them. -/
theorem keptForError_eq_iff {first second : List UInt8} (hlength : first.length = second.length)
    (hfirst : Fills t first) (hsecond : Fills t second) :
    keptForError t first = keptForError t second ↔
      Template.length first.length t ≤ captureLimit ∨ AgreeOnCuts t first second := by
  by_cases hne : first = []
  · have hnil : second = [] := List.length_eq_zero_iff.mp (by rw [← hlength, hne]; rfl)
    subst hne hnil
    exact ⟨fun _ => .inr ⟨rfl, rfl⟩, fun _ => rfl⟩
  by_cases hshort : Template.length first.length t ≤ captureLimit
  · have hne' : second ≠ [] := by
      intro hnil
      rw [hnil] at hlength
      exact hne (List.length_eq_zero_iff.mp hlength)
    rw [hfirst.keptForError_eq hne, hsecond.keptForError_eq hne', keptTemplate, if_pos hshort,
      keptTemplate, if_pos (hlength ▸ hshort)]
    simp [hshort]
  · rw [Fills.keptForError_eq_iff_of_gt hlength hne hfirst hsecond (Nat.lt_of_not_le hshort)]
    simp [hshort]

/-- An output of `x` and `y` that puts the head cut between the two bytes of its secret. -/
def cutAtHead : List (Piece UInt8) :=
  oneSecret (List.replicate (headLimit - 1) 120) (List.replicate captureLimit 121)

theorem fills_cutAtHead {x y : UInt8} (hxy : x ≠ y) (hfirst : x ≠ 120) (hlast : x ≠ 121)
    (hmarker : ∀ b ∈ [x, y], b ∉ omissionMarker 131121) : Fills cutAtHead [x, y] :=
  fills_oneSecret List.length_replicate List.length_replicate hxy
    (fun hmem => hfirst (List.eq_of_mem_replicate hmem))
    (fun hmem => hlast (List.eq_of_mem_replicate hmem)) hmarker

/-- Two secrets with the same first byte look the same. -/
theorem keptForError_eq_iff_same_first_byte :
    Fills cutAtHead [65, 66] ∧ Fills cutAtHead [65, 67] ∧
      keptForError cutAtHead [65, 66] = keptForError cutAtHead [65, 67] := by
  have hfirst : Fills cutAtHead [65, 66] :=
    fills_cutAtHead (by decide) (by decide) (by decide) (by decide +kernel)
  have hsecond : Fills cutAtHead [65, 67] :=
    fills_cutAtHead (by decide) (by decide) (by decide) (by decide +kernel)
  have hlength : [65, 66].length = ([65, 67] : List UInt8).length := by decide
  refine ⟨hfirst, hsecond, (keptForError_eq_iff hlength hfirst hsecond).mpr ?_⟩
  exact .inr ((agreeOnCuts_oneSecret List.length_replicate List.length_replicate).mpr rfl)

/-- Two secrets with different first bytes do not: the byte before the cut is shown. -/
theorem keptForError_shows_first_byte :
    Fills cutAtHead [65, 66] ∧ Fills cutAtHead [67, 68] ∧
      keptForError cutAtHead [65, 66] ≠ keptForError cutAtHead [67, 68] := by
  have hfirst : Fills cutAtHead [65, 66] :=
    fills_cutAtHead (by decide) (by decide) (by decide) (by decide +kernel)
  have hsecond : Fills cutAtHead [67, 68] :=
    fills_cutAtHead (by decide) (by decide) (by decide) (by decide +kernel)
  have hlength : [65, 66].length = ([67, 68] : List UInt8).length := by decide
  have hlong : captureLimit < Template.length [(65 : UInt8), 66].length cutAtHead := by
    show captureLimit < Template.length 2 (oneSecret _ _)
    rw [length_oneSecret List.length_replicate List.length_replicate]
    decide
  refine ⟨hfirst, hsecond, ?_⟩
  intro heq
  have hagree :=
    (Fills.keptForError_eq_iff_of_gt hlength (by decide) hfirst hsecond hlong).mp heq
  exact absurd
    ((agreeOnCuts_oneSecret List.length_replicate List.length_replicate).mp hagree) (by decide)

end Rssh
