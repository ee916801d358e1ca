import Rssh.Lib.Machine
import Rssh.HostKey.Learn

/-!
# Appends that race

Several `learn` calls append to one known-hosts file. A record is stored in several appends,
nothing locks the file, and each call looks at the last byte of the file only once, before its
first append.

* `learnRace` is the machine of all interleavings; `learn_alone` shows that a call on its own
  does what `learn` does.
* `unmixed_appends_store_records`: when no append falls into the record of another call, all
  keys are known afterwards and the old records are read as before.
* `mixed_appends_lose_key`: two records stored piece by piece in turns are lost.
-/

namespace Rssh

variable {Key ι : Type}

/-! ## The machine -/

/-- The arguments of a `learn` call. -/
structure LearnCall (Key : Type) where
  host : String
  port : UInt16
  key : Key

/-- The appends of the call behind its newline probe. -/
def LearnCall.pieces (russh : RusshKeys Key) (call : LearnCall Key) : List String :=
  recordPieces call.host call.port (russh.toOpenssh call.key)

/-- `left i` is what call `i` still has to append, once it has looked at the file. -/
structure RaceState (ι : Type) where
  content : ByteArray
  left : ι → Option (List String)
  /-- Whose append was the last one. -/
  writer : Option ι := none

/-- The position of the last byte is fixed by the seek and appends do not change what is there,
so the probe is one step. -/
inductive RaceStep (ι : Type) where
  | probe (i : ι)
  | append (i : ι)
deriving DecidableEq, Repr

def learnRace [DecidableEq ι] (russh : RusshKeys Key) (calls : ι → LearnCall Key) :
    Machine (RaceState ι) (RaceStep ι) where
  step s
    | .probe i =>
        match s.left i, needsNewline {} s.content with
        | none, .ok newline =>
            let pieces := (if newline then ["\n"] else []) ++ (calls i).pieces russh
            some { s with left := Function.update s.left i (some pieces) }
        | _, _ => none
    | .append i =>
        match s.left i with
        | some (piece :: rest) =>
            some {
              content := s.content ++ piece.toUTF8
              left := Function.update s.left i (some rest)
              writer := some i }
        | _ => none

/-- No call has looked at the file yet. -/
def RaceState.start (content : Option ByteArray) : RaceState ι where
  content := content.getD .empty
  left _ := none

/-- The first piece is the line break that the file needs. -/
theorem needsNewline_lineBreak (content : ByteArray) :
    ∃ newline, needsNewline {} content = .ok newline ∧
      (if newline then ["\n"] else []) =
        if lineBreak content = "" then [] else [lineBreak content] := by
  unfold needsNewline lineBreak
  cases content.data.back? with
  | none => exact ⟨false, rfl, rfl⟩
  | some lastByte =>
      refine ⟨lastByte != 10, rfl, ?_⟩
      by_cases hlast : lastByte = 10 <;> simp [hlast]

section Steps

variable [DecidableEq ι] {russh : RusshKeys Key} {calls : ι → LearnCall Key}
  {s s' : RaceState ι} {l : RaceStep ι}

/-- Everything a step can do. -/
theorem learnRace_cases (h : (learnRace russh calls).step s l = some s') :
    (∃ i, l = .probe i ∧ s.left i = none ∧
      s' = { s with left := Function.update s.left i (some
        ((if lineBreak s.content = "" then [] else [lineBreak s.content]) ++
          (calls i).pieces russh)) }) ∨
    (∃ i piece rest, l = .append i ∧ s.left i = some (piece :: rest) ∧
      s' = {
        content := s.content ++ piece.toUTF8
        left := Function.update s.left i (some rest)
        writer := some i }) := by
  cases l with
  | probe i =>
      rcases needsNewline_lineBreak s.content with ⟨newline, hnewline, hpieces⟩
      cases hleft : s.left i with
      | some pieces => simp [learnRace, hleft] at h
      | none =>
          simp only [learnRace, hleft, hnewline, hpieces, Option.some.injEq] at h
          exact .inl ⟨i, rfl, hleft, h.symm⟩
  | append i =>
      -- the next piece goes behind what the file has now
      rcases hleft : s.left i with _ | _ | ⟨piece, rest⟩
      · simp [learnRace, hleft] at h
      · simp [learnRace, hleft] at h
      · simp only [learnRace, hleft, Option.some.injEq] at h
        exact .inr ⟨i, piece, rest, rfl, hleft, h.symm⟩

/-- A call can make all its appends one after the other. -/
theorem run_appends (russh : RusshKeys Key) (calls : ι → LearnCall Key) {s : RaceState ι} {i : ι}
    {pieces : List String} (hleft : s.left i = some pieces) :
    ∃ s', (learnRace russh calls).run s (List.replicate pieces.length (.append i)) = some s' ∧
      s'.left i = some [] ∧ s'.content = s.content ++ (String.join pieces).toUTF8 ∧
      ∀ j ≠ i, s'.left j = s.left j := by
  induction pieces generalizing s with
  | nil => exact ⟨s, rfl, hleft, by simp, fun _ _ => rfl⟩
  | cons piece rest ih =>
      let t : RaceState ι := {
        content := s.content ++ piece.toUTF8
        left := Function.update s.left i (some rest)
        writer := some i }
      have hstep : (learnRace russh calls).step s (.append i) = some t := by
        simp only [learnRace, hleft, t]
      rcases ih (s := t) (Function.update_self ..) with ⟨s', hrun, hdone, hcontent, hothers⟩
      refine ⟨s', Machine.run_cons.mpr ⟨t, hstep, hrun⟩, hdone, ?_, ?_⟩
      · rw [hcontent, String.join_cons]
        simp [t, String.toUTF8_eq_toByteArray, ByteArray.append_assoc]
      · exact fun j hj => (hothers j hj).trans (Function.update_of_ne hj ..)

/-- A call that is not disturbed does what `learn` does, and leaves the other calls alone. -/
theorem learn_alone (russh : RusshKeys Key) (calls : ι → LearnCall Key) {s : RaceState ι} {i : ι}
    (hleft : s.left i = none) {disk : Disk} {path : String}
    (hcontent : s.content = (disk path).getD .empty) :
    ∃ n s', (learnRace russh calls).run s (.probe i :: List.replicate n (.append i)) = some s' ∧
      s'.left i = some [] ∧ (∀ j ≠ i, s'.left j = s.left j) ∧
      (learn russh {} disk path (calls i).host (calls i).port (calls i).key).2 =
        disk.write path s'.content := by
  rcases needsNewline_lineBreak s.content with ⟨newline, hnewline, -⟩
  let pieces := (if newline then ["\n"] else []) ++ (calls i).pieces russh
  let t : RaceState ι := { s with left := Function.update s.left i (some pieces) }
  have hstep : (learnRace russh calls).step s (.probe i) = some t := by
    simp only [learnRace, hleft, hnewline, t, pieces]
  have hpieces : t.left i = some pieces := by simp [t]
  rcases run_appends russh calls hpieces with ⟨s', hrun, hdone, happended, hothers⟩
  refine ⟨pieces.length, s', Machine.run_cons.mpr ⟨t, hstep, hrun⟩, hdone, ?_, ?_⟩
  · exact fun j hj => (hothers j hj).trans (Function.update_of_ne hj ..)
  · have hstored : storedPieces {} 0 pieces = (String.join pieces).toUTF8 :=
      storedPieces_of_ok (writePieces_eq 0 "" pieces)
    rw [hcontent] at hnewline
    rw [learn_writes russh rfl rfl hnewline rfl, happended, ← hcontent]
    exact congrArg _ (congrArg _ hstored)

end Steps

/-! ## Appends that do not fall into a record -/

/-- An append that directly follows one of another call finds that call outside its record, or
with only its newline missing, and is then a newline itself. -/
def Unmixed (russh : RusshKeys Key) (calls : ι → LearnCall Key) (s : RaceState ι) :
    RaceStep ι → Prop
  | .probe _ => True
  | .append i => ∀ j ∈ s.writer, j ≠ i →
      s.left j = some [] ∨ s.left j = some ((calls j).pieces russh) ∨
        s.left j = some ["\n"] ∧ (s.left i).bind List.head? = some "\n"

instance [DecidableEq ι] (russh : RusshKeys Key) (calls : ι → LearnCall Key) (s : RaceState ι) :
    (l : RaceStep ι) → Decidable (Unmixed russh calls s l)
  | .probe _ => .isTrue trivial
  | .append i => inferInstanceAs (Decidable (∀ j ∈ s.writer, j ≠ i →
      s.left j = some [] ∨ s.left j = some ((calls j).pieces russh) ∨
        s.left j = some ["\n"] ∧ (s.left i).bind List.head? = some "\n"))

/-- The pieces before the last newline. -/
def LearnCall.body (russh : RusshKeys Key) (call : LearnCall Key) : List String :=
  endpointPieces call.host call.port ++
    match russh.toOpenssh call.key with
    | .ok openssh => [openssh]
    | .error _ => []

/-- The line of the call's record. -/
def LearnCall.line (russh : RusshKeys Key) (call : LearnCall Key) : List Char :=
  (String.join (call.body russh)).toList

/-- The record is one line, ended by the last piece. -/
structure LearnCall.Plain (russh : RusshKeys Key) (call : LearnCall Key) : Prop where
  pieces : call.pieces russh = call.body russh ++ ["\n"]
  body : call.body russh ≠ []
  line : '\n' ∉ call.line russh

/-- What stands behind the old content: the newline that ends its last line, when it is there,
complete lines, and the line that is being written. -/
structure RaceTail where
  broken : Bool
  lines : List (List Char)
  fragment : List Char

def RaceTail.text (ending : String) (t : RaceTail) : String :=
  (if t.broken then ending else "") ++ String.ofList (Text.unlines t.lines ++ t.fragment)

/-- Call `j` is writing the last line. -/
def Inside (russh : RusshKeys Key) (calls : ι → LearnCall Key) (s : RaceState ι) (t : RaceTail)
    (j : ι) : Prop :=
  s.writer = some j ∧ t.broken = true ∧
    ∃ written rest, (calls j).pieces russh = written ++ rest ∧ written ≠ [] ∧ rest ≠ [] ∧
      s.left j = some rest ∧ t.fragment = (String.join written).toList

/-- A call that is not writing the last line. Its newline may come late, when the newline of
another call has ended its line. -/
inductive Settled (pieces : List String) (line : List Char) (t : RaceTail) :
    Option (List String) → Prop where
  | before : Settled pieces line t none
  | separating : Settled pieces line t (some ("\n" :: pieces))
  | ready (h : t.broken = true) : Settled pieces line t (some pieces)
  | closed (h : line ∈ t.lines) : Settled pieces line t (some ["\n"])
  | finished (h : line ∈ t.lines) : Settled pieces line t (some [])

/-- The stored lines are the records of the calls, and blank lines. -/
def Stored (russh : RusshKeys Key) (calls : ι → LearnCall Key) (lines : List (List Char)) : Prop :=
  ∀ line ∈ lines, line = [] ∨ ∃ i, line = (calls i).line russh

structure RaceInv (russh : RusshKeys Key) (calls : ι → LearnCall Key) (old : ByteArray)
    (s : RaceState ι) (t : RaceTail) : Prop where
  content : s.content = old ++ (t.text (lineBreak old)).toUTF8
  unbroken : t.broken = false → lineBreak old = "\n" ∧ t.lines = [] ∧ t.fragment = []
  lines : Stored russh calls t.lines
  fragment : t.fragment ≠ [] → ∃ j, Inside russh calls s t j
  progress : ∀ i, Inside russh calls s t i ∨
    Settled ((calls i).pieces russh) ((calls i).line russh) t (s.left i)

section Invariant

variable {russh : RusshKeys Key} {calls : ι → LearnCall Key} {s : RaceState ι} {t t' : RaceTail}
  {old : ByteArray} {i j : ι}

/-- A newline inside the pieces is the last of them. -/
theorem LearnCall.Plain.newline {call : LearnCall Key} (h : call.Plain russh)
    {written rest : List String} (heq : call.pieces russh = written ++ "\n" :: rest) :
    rest = [] ∧ (String.join written).toList = call.line russh := by
  rw [h.pieces] at heq
  rcases List.eq_nil_or_concat rest with rfl | ⟨init, last, rfl⟩
  · obtain ⟨hbody, -⟩ := List.append_inj' heq rfl
    exact ⟨rfl, by rw [← hbody, LearnCall.line]⟩
  · -- otherwise the newline is in the body
    refine absurd ?_ h.line
    have hbody : call.body russh = written ++ "\n" :: init := by
      have heq' : call.body russh ++ ["\n"] = (written ++ "\n" :: init) ++ [last] := by
        simpa using heq
      exact (List.append_inj' heq' rfl).1
    simp [LearnCall.line, hbody, String.join_append, String.join_cons]

theorem Settled.mono {pieces : List String} {line : List Char} {left : Option (List String)}
    (h : Settled pieces line t left) (hbroken : t.broken = true → t'.broken = true)
    (hlines : t.lines ⊆ t'.lines) : Settled pieces line t' left := by
  cases h with
  | before => exact .before
  | separating => exact .separating
  | ready h => exact .ready (hbroken h)
  | closed h => exact .closed (hlines h)
  | finished h => exact .finished (hlines h)

/-- Only a newline may follow the last line of another call, and only when that line is
complete. -/
theorem Unmixed.inside (h : Unmixed russh calls s (.append i)) (hj : Inside russh calls s t j)
    (hne : j ≠ i) : s.left j = some ["\n"] ∧ (s.left i).bind List.head? = some "\n" := by
  obtain ⟨hwriter, -, written, left, hpieces, hwritten, hrest, hleft, -⟩ := hj
  rcases h j hwriter hne with h | h | h
  · exact absurd (Option.some.inj (hleft.symm.trans h)) hrest
  · have hlength := congrArg List.length hpieces
    rw [Option.some.inj (hleft.symm.trans h), List.length_append] at hlength
    exact absurd (List.length_eq_zero_iff.mp (by omega)) hwritten
  · exact h

/-- A newline ends the last line, whoever appends it. -/
theorem RaceInv.newline (hplain : ∀ i, (calls i).Plain russh)
    (hinv : RaceInv russh calls old s t)
    (hinside : ∀ j, Inside russh calls s t j → s.left j = some ["\n"]) :
    ∃ t' : RaceTail, t'.broken = true ∧ t'.fragment = [] ∧
      s.content ++ "\n".toUTF8 = old ++ (t'.text (lineBreak old)).toUTF8 ∧
      Stored russh calls t'.lines ∧
      ∀ j, Settled ((calls j).pieces russh) ((calls j).line russh) t' (s.left j) := by
  -- a line in progress is the whole record of its call
  have hline : ∀ j, Inside russh calls s t j → t.fragment = (calls j).line russh := by
    intro j hj
    have hlast := hinside j hj
    obtain ⟨-, -, written, rest, hpieces, -, -, hleft, hfragment⟩ := hj
    obtain rfl : rest = ["\n"] := Option.some.inj (hleft.symm.trans hlast)
    rw [hfragment, ((hplain j).newline hpieces).2]
  cases hbroken : t.broken with
  | false =>
      -- it ends the last line of the old content
      obtain ⟨hbreak, hlines, hfragment⟩ := hinv.unbroken hbroken
      refine ⟨⟨true, [], []⟩, rfl, rfl, ?_, nofun, ?_⟩
      · rw [hinv.content]
        simp [RaceTail.text, hbroken, hlines, hfragment, hbreak, Text.unlines]
      · intro j
        rcases hinv.progress j with hj | hj
        · rw [hj.2.1] at hbroken
          cases hbroken
        · exact hj.mono (fun _ => rfl) (by simp [hlines])
  | true =>
      -- it ends the line of a call, or makes a blank line
      refine ⟨⟨true, t.lines ++ [t.fragment], []⟩, rfl, rfl, ?_, ?_, ?_⟩
      · rw [hinv.content]
        simp [RaceTail.text, hbroken, Text.unlines, String.toUTF8_eq_toByteArray,
          ByteArray.append_assoc]
      · intro line hmem
        rcases List.mem_append.mp hmem with hmem | hmem
        · exact hinv.lines line hmem
        · obtain rfl := List.mem_singleton.mp hmem
          by_cases hempty : t.fragment = []
          · exact .inl hempty
          · rcases hinv.fragment hempty with ⟨j, hj⟩
            exact .inr ⟨j, hline j hj⟩
      · intro j
        rcases hinv.progress j with hj | hj
        · rw [hinside j hj]
          exact .closed (by simp [hline j hj])
        · exact hj.mono (fun _ => rfl) (List.subset_append_left _ _)

/-- When nobody else writes the last line, it holds what the call has written of its record. -/
theorem RaceInv.own_line (hinv : RaceInv russh calls old s t) {piece : String}
    {rest : List String} (hpiece : piece ≠ "\n") (hleft : s.left i = some (piece :: rest))
    (hothers : ∀ j, Inside russh calls s t j → j = i) :
    t.broken = true ∧ ∃ written, (calls i).pieces russh = written ++ piece :: rest ∧
      t.fragment = (String.join written).toList := by
  rcases hinv.progress i with hi | hi
  · obtain ⟨-, hbroken, written, left, hpieces, -, -, hown, hfragment⟩ := hi
    obtain rfl : left = piece :: rest := Option.some.inj (hown.symm.trans hleft)
    exact ⟨hbroken, written, hpieces, hfragment⟩
  · rw [hleft] at hi
    generalize hnext : some (piece :: rest) = left at hi
    cases hi with
    | before => cases hnext
    | separating => exact absurd (by simpa using congrArg (·.map List.head?) hnext) hpiece
    | ready hbroken =>
        refine ⟨hbroken, [], by simpa using hnext.symm, ?_⟩
        -- a last line would be the call's own, but it has all its pieces left
        by_contra hfragment
        rcases hinv.fragment hfragment with ⟨j, hj⟩
        obtain rfl := hothers j hj
        obtain ⟨-, -, written, left, hpieces, hwritten, -, hown, -⟩ := hj
        obtain rfl : left = (calls j).pieces russh :=
          Option.some.inj (hown.symm.trans (hleft.trans hnext))
        exact hwritten (by simpa using hpieces)
    | closed => exact absurd (by simpa using congrArg (·.map List.head?) hnext) hpiece
    | finished => simp at hnext

theorem lineBreak_cases (content : ByteArray) :
    lineBreak content = "" ∨ lineBreak content = "\n" := by
  unfold lineBreak
  split
  · exact .inl rfl
  · split
    · exact .inl rfl
    · exact .inr rfl

/-- The invariant holds before the first probe. -/
theorem raceInv_start (russh : RusshKeys Key) (calls : ι → LearnCall Key)
    (content : Option ByteArray) :
    ∃ t, RaceInv russh calls (content.getD .empty) (.start content) t := by
  refine ⟨⟨lineBreak (content.getD .empty) = "", [], []⟩, ?_, ?_, nofun, by simp,
    fun i => .inr .before⟩
  · rcases lineBreak_cases (content.getD .empty) with h | h <;>
      simp [RaceState.start, RaceTail.text, Text.unlines, h]
  · intro h
    rcases lineBreak_cases (content.getD .empty) with hbreak | hbreak
    · simp [hbreak] at h
    · exact ⟨hbreak, rfl, rfl⟩

variable [DecidableEq ι]

/-- A probe gives the call its pieces, behind a newline when the last line is not ended. -/
theorem RaceInv.probe (hinv : RaceInv russh calls old s t) (hleft : s.left i = none) :
    RaceInv russh calls old
      { s with left := Function.update s.left i (some
        ((if lineBreak s.content = "" then [] else [lineBreak s.content]) ++
          (calls i).pieces russh)) } t := by
  have hkeep : ∀ j, Inside russh calls s t j → Inside russh calls
      { s with left := Function.update s.left i (some
        ((if lineBreak s.content = "" then [] else [lineBreak s.content]) ++
          (calls i).pieces russh)) } t j := by
    rintro j ⟨hwriter, hbroken, written, rest, hpieces, hwritten, hrest, hj, hfragment⟩
    have hne : j ≠ i := by
      rintro rfl
      rw [hleft] at hj
      cases hj
    exact ⟨hwriter, hbroken, written, rest, hpieces, hwritten, hrest,
      by simpa [Function.update_of_ne hne] using hj, hfragment⟩
  refine ⟨hinv.content, hinv.unbroken, hinv.lines, ?_, ?_⟩
  · intro hfragment
    rcases hinv.fragment hfragment with ⟨j, hj⟩
    exact ⟨j, hkeep j hj⟩
  · intro j
    rcases hinv.progress j with hj | hj
    · exact .inl (hkeep j hj)
    · -- the call that probes has not begun its record
      by_cases hne : j = i
      · subst hne
        refine .inr ?_
        simp only [Function.update_self]
        rcases lineBreak_cases s.content with hbreak | hbreak
        · -- the file ends in a newline, so the old content has its line ended
          simp only [hbreak, if_true, List.nil_append]
          refine .ready ?_
          by_contra hbroken
          -- the file ends with a complete line, or another record is in the making
          obtain ⟨hold, hlines, hfragment⟩ := hinv.unbroken (Bool.eq_false_iff.mpr hbroken)
          rw [hinv.content] at hbreak
          simp [RaceTail.text, Bool.eq_false_iff.mpr hbroken, hlines, hfragment, Text.unlines,
            hold] at hbreak
        · rw [if_neg (by simp [hbreak]), hbreak]
          exact .separating
      · exact .inr (by simpa [Function.update_of_ne hne] using hj)

/-- An append of a newline. -/
theorem RaceInv.append_newline (hplain : ∀ i, (calls i).Plain russh)
    (hinv : RaceInv russh calls old s t) {rest : List String}
    (hleft : s.left i = some ("\n" :: rest)) (hunmixed : Unmixed russh calls s (.append i)) :
    ∃ t', RaceInv russh calls old {
      content := s.content ++ "\n".toUTF8
      left := Function.update s.left i (some rest)
      writer := some i } t' := by
  have hinside : ∀ j, Inside russh calls s t j → s.left j = some ["\n"] := by
    intro j hj
    by_cases hne : j = i
    · subst hne
      obtain ⟨-, -, written, left, hpieces, -, -, hown, -⟩ := hj
      obtain rfl : left = "\n" :: rest := Option.some.inj (hown.symm.trans hleft)
      rw [hown, ((hplain j).newline hpieces).1]
    · exact (hunmixed.inside hj hne).1
  rcases hinv.newline hplain hinside with ⟨t', hbroken, hfragment, hcontent, hlines, hsettled⟩
  refine ⟨t', hcontent, by simp [hbroken], hlines, by simp [hfragment], ?_⟩
  intro j
  refine .inr ?_
  by_cases hne : j = i
  · subst hne
    have hj := hsettled j
    rw [hleft] at hj
    simp only [Function.update_self]
    generalize hnext : some ("\n" :: rest) = left at hj
    cases hj with
    | before => cases hnext
    | separating =>
        obtain rfl : rest = (calls j).pieces russh := by simpa using hnext
        exact .ready hbroken
    | ready =>
        -- the first piece of a record is no newline
        have hpieces : (calls j).pieces russh = [] ++ "\n" :: rest := by simpa using hnext.symm
        obtain ⟨rfl, -⟩ := (hplain j).newline hpieces
        have hbody : (calls j).body russh ++ ["\n"] = [] ++ ["\n"] := by
          rw [← (hplain j).pieces, hpieces]
        exact absurd (List.append_inj' hbody rfl).1 (hplain j).body
    | closed h =>
        obtain rfl : rest = [] := by simpa using hnext
        exact .finished h
    | finished => simp at hnext
  · simpa [Function.update_of_ne hne] using hsettled j

/-- An append of another piece continues the call's own line, or starts it. -/
theorem RaceInv.append_piece (hplain : ∀ i, (calls i).Plain russh)
    (hinv : RaceInv russh calls old s t) {piece : String} {rest : List String}
    (hpiece : piece ≠ "\n") (hleft : s.left i = some (piece :: rest))
    (hunmixed : Unmixed russh calls s (.append i)) :
    ∃ t', RaceInv russh calls old {
      content := s.content ++ piece.toUTF8
      left := Function.update s.left i (some rest)
      writer := some i } t' := by
  -- the last line is not another call's
  have hothers : ∀ j, Inside russh calls s t j → j = i := by
    intro j hj
    by_contra hne
    have hnext := (hunmixed.inside hj hne).2
    rw [hleft] at hnext
    exact hpiece (Option.some.inj hnext)
  obtain ⟨hbroken, written, hpieces, hfragment⟩ := hinv.own_line hpiece hleft hothers
  have hrest : rest ≠ [] := by
    rintro rfl
    rw [(hplain i).pieces] at hpieces
    exact hpiece (by simpa using (List.append_inj' hpieces rfl).2.symm)
  let s' : RaceState ι := {
    content := s.content ++ piece.toUTF8
    left := Function.update s.left i (some rest)
    writer := some i }
  let t' : RaceTail := { t with fragment := t.fragment ++ piece.toList }
  have hinside : Inside russh calls s' t' i := by
    refine ⟨rfl, hbroken, written ++ [piece], rest, by simpa using hpieces, by simp, hrest,
      Function.update_self .., ?_⟩
    simp [t', hfragment, String.join_append, String.join_cons]
  refine ⟨t', ?_, by simp [t', hbroken], hinv.lines, fun _ => ⟨i, hinside⟩, ?_⟩
  · rw [hinv.content]
    simp [t', RaceTail.text, hbroken, String.toUTF8_eq_toByteArray, ByteArray.append_assoc]
  · intro j
    rcases eq_or_ne i j with rfl | hne
    · exact .inl hinside
    · rcases hinv.progress j with hj | hj
      · exact absurd (hothers j hj).symm hne
      · refine .inr ?_
        simp only [Function.update_of_ne hne.symm]
        exact hj.mono id (List.Subset.refl _)

/-- Every step that does not mix keeps the invariant. -/
theorem raceInv_step (hplain : ∀ i, (calls i).Plain russh) (s : RaceState ι) (l : RaceStep ι)
    (s' : RaceState ι) (hunmixed : Unmixed russh calls s l)
    (hstep : (learnRace russh calls).step s l = some s')
    (hinv : ∃ t, RaceInv russh calls old s t) : ∃ t, RaceInv russh calls old s' t := by
  rcases hinv with ⟨t, hinv⟩
  rcases learnRace_cases hstep with ⟨i, rfl, hleft, rfl⟩ | ⟨i, piece, rest, rfl, hleft, rfl⟩
  · exact ⟨t, hinv.probe hleft⟩
  · by_cases hpiece : piece = "\n"
    · subst hpiece
      exact hinv.append_newline hplain hleft hunmixed
    · exact hinv.append_piece hplain hpiece hleft hunmixed

/-- The file when all calls have returned. -/
theorem unmixed_run_leaves [Nonempty ι] (hplain : ∀ i, (calls i).Plain russh)
    {content : Option ByteArray} {trace : List (RaceStep ι)} {s : RaceState ι}
    (hunmixed : (learnRace russh calls).AllSteps (Unmixed russh calls) (.start content) trace)
    (hrun : (learnRace russh calls).run (.start content) trace = some s)
    (hdone : ∀ i, s.left i = some []) :
    ∃ lines : List (List Char),
      s.content = content.getD .empty ++
        (lineBreak (content.getD .empty) ++ String.ofList (Text.unlines lines)).toUTF8 ∧
      Stored russh calls lines ∧
      ∀ i, (calls i).line russh ∈ lines := by
  rcases Machine.run_invariant_of (raceInv_step hplain) hunmixed hrun
    (raceInv_start russh calls content) with ⟨t, hinv⟩
  -- a call that is done has stored its line
  have hstored : ∀ i, (calls i).line russh ∈ t.lines := by
    intro i
    rcases hinv.progress i with ⟨-, -, written, rest, -, -, hrest, hleft, -⟩ | hi
    · exact absurd (Option.some.inj (hleft.symm.trans (hdone i))) hrest
    · rw [hdone i] at hi
      generalize hnext : some ([] : List String) = left at hi
      cases hi with
      | before | separating | closed => simp at hnext
      | ready =>
          have hpieces := (hplain i).pieces
          rw [← Option.some.inj hnext] at hpieces
          simp at hpieces
      | finished h => exact h
  have hfragment : t.fragment = [] := by
    by_contra hne
    rcases hinv.fragment hne with ⟨j, -, -, written, rest, -, -, hrest, hleft, -⟩
    exact hrest (Option.some.inj (hleft.symm.trans (hdone j)))
  have hbroken : t.broken = true := by
    by_contra hnot
    obtain ⟨-, hlines, -⟩ := hinv.unbroken (Bool.eq_false_iff.mpr hnot)
    rcases ‹Nonempty ι› with ⟨i⟩
    have hmem := hstored i
    rw [hlines] at hmem
    cases hmem
  refine ⟨t.lines, ?_, hinv.lines, hstored⟩
  rw [hinv.content, RaceTail.text, if_pos hbroken, hfragment, List.append_nil]

end Invariant

/-! ## Reading the file afterwards -/

/-- russh skips blank lines. -/
structure SkipsBlankLines [DecidableEq Key] (russh : RusshKeys Key)
    (lineKey : String → UInt16 → List Char → Option (Except String Key)) : Prop
    extends ReadsLines russh lineKey where
  blank : ∀ host port, lineKey host port [] = none

section Readers

variable [DecidableEq Key] {russh : RusshKeys Key}
  {lineKey : String → UInt16 → List Char → Option (Except String Key)}
  {calls : ι → LearnCall Key} {lines : List (List Char)} {host : String} {port : UInt16}

theorem LearnCall.line_eq (hreads : ReadsRecords russh lineKey) (call : LearnCall Key) :
    ∃ openssh, russh.toOpenssh call.key = .ok openssh ∧
      call.line russh = (record call.host call.port openssh).toList := by
  rcases hreads.encodes call.key with ⟨base64, hopenssh, -⟩
  refine ⟨_, hopenssh, ?_⟩
  simp only [LearnCall.line, LearnCall.body, hopenssh, String.join_append, join_endpointPieces,
    record]
  simp [String.join_cons]

theorem LearnCall.plain (hreads : ReadsRecords russh lineKey) (call : LearnCall Key)
    (hhost : PlainHost call.host) : call.Plain russh := by
  rcases call.line_eq hreads with ⟨openssh, hopenssh, hline⟩
  refine ⟨?_, ?_, ?_⟩
  · simp [LearnCall.pieces, LearnCall.body, recordPieces, hopenssh]
  · simp [LearnCall.body, hopenssh]
  · rw [hline]
    exact newline_not_mem_record hreads hhost hopenssh

theorem Stored.newline_not_mem (hreads : ReadsRecords russh lineKey)
    (hhosts : ∀ i, PlainHost (calls i).host) (h : Stored russh calls lines) {line : List Char}
    (hmem : line ∈ lines) : '\n' ∉ line := by
  rcases h line hmem with rfl | ⟨i, rfl⟩
  · simp
  · exact ((calls i).plain hreads (hhosts i)).line

/-- russh finds the records of the endpoint. -/
theorem Stored.mem_entries (hreads : SkipsBlankLines russh lineKey)
    (hhosts : ∀ i, PlainHost (calls i).host) (h : Stored russh calls lines)
    (hhost : PlainHost host) {entry : Except String Key} :
    entry ∈ entries lineKey (String.ofList (Text.unlines lines)) host port ↔
      ∃ i, (calls i).line russh ∈ lines ∧ host = (calls i).host ∧ port = (calls i).port ∧
        entry = .ok (calls i).key := by
  rw [entries, String.toList_ofList, Text.rawLines_unlines fun line hmem =>
    h.newline_not_mem hreads.toReadsRecords hhosts hmem, List.mem_filterMap]
  have hread : ∀ i, lineKey host port ((calls i).line russh) =
      if host = (calls i).host ∧ port = (calls i).port then some (.ok (calls i).key) else none := by
    intro i
    rcases (calls i).line_eq hreads.toReadsRecords with ⟨openssh, hopenssh, hline⟩
    rw [hline]
    exact lineKey_record_line hreads.toReadsRecords hhost (hhosts i) hopenssh port (calls i).port
  constructor
  · rintro ⟨line, hmem, hentry⟩
    rcases h line hmem with rfl | ⟨i, rfl⟩
    · rw [hreads.blank] at hentry
      cases hentry
    · rw [hread] at hentry
      split at hentry
      · rename_i heq
        exact ⟨i, hmem, heq.1, heq.2, (Option.some.inj hentry).symm⟩
      · cases hentry
  · rintro ⟨i, hmem, hh, hp, rfl⟩
    exact ⟨_, hmem, by rw [hread, if_pos ⟨hh, hp⟩]⟩

/-- For an endpoint of no call the scan finds nothing. -/
theorem Stored.contains_eq_false (hreads : SkipsBlankLines russh lineKey)
    (hhosts : ∀ i, PlainHost (calls i).host) (hempty : ∀ i, (calls i).host ≠ "")
    (h : Stored russh calls lines) (hhost : PlainHost host)
    (hother : ∀ i, ¬ (host = (calls i).host ∧ port = (calls i).port)) :
    knownHostsContainsEndpoint (some (String.ofList (Text.unlines lines)).toUTF8) host port =
      false := by
  rw [knownHostsContainsEndpoint_text, String.toList_ofList, Text.rawLines_unlines fun line hmem =>
    h.newline_not_mem hreads.toReadsRecords hhosts hmem, List.any_eq_false]
  intro token htoken
  rcases List.mem_filterMap.mp htoken with ⟨line, hmem, hfirst⟩
  rcases h line hmem with rfl | ⟨i, rfl⟩
  · cases hfirst
  · rcases (calls i).line_eq hreads.toReadsRecords with ⟨openssh, -, hline⟩
    have hname : endpointName (calls i).host (calls i).port ≠ "" := fun hname =>
      hempty i (endpointName_eq_empty_iff.mp hname).1
    rw [hline, firstToken_record (hhosts i) hname, Option.some.injEq] at hfirst
    rw [← hfirst, namesEndpoint_endpointName hhost (hhosts i)]
    simpa using hother i

/-- In a race in which no append falls into the record of another call, the records end up on
lines of their own behind the old content. russh then knows the key of each call, unless the old
content stands against it, and for every other endpoint both readers find what they found
before. -/
theorem unmixed_appends_store_records [DecidableEq ι] [Nonempty ι]
    (hreads : SkipsBlankLines russh lineKey) (hhosts : ∀ i, PlainHost (calls i).host)
    (hempty : ∀ i, (calls i).host ≠ "")
    (hendpoints : Function.Injective fun i => endpointName (calls i).host (calls i).port)
    {content : Option ByteArray} {trace : List (RaceStep ι)} {s : RaceState ι}
    (hunmixed : (learnRace russh calls).AllSteps (Unmixed russh calls) (.start content) trace)
    (hrun : (learnRace russh calls).run (.start content) trace = some s)
    (hdone : ∀ i, s.left i = some []) :
    (∃ lines, Stored russh calls lines ∧
      s.content = content.getD .empty ++
        (lineBreak (content.getD .empty) ++ String.ofList (Text.unlines lines)).toUTF8) ∧
    (∀ i, russh.checkKnownHostsPath (some s.content) (calls i).host (calls i).port (calls i).key =
        .ok true ↔
      Consistent russh lineKey content (calls i).host (calls i).port (calls i).key) ∧
    ∀ host port, PlainHost host →
      (∀ i, endpointName host port ≠ endpointName (calls i).host (calls i).port) →
        (∀ key, russh.checkKnownHostsPath (some s.content) host port key =
          russh.checkKnownHostsPath content host port key) ∧
        knownHostsContainsEndpoint (some s.content) host port =
          knownHostsContainsEndpoint content host port := by
  have hplain : ∀ i, (calls i).Plain russh := fun i =>
    (calls i).plain hreads.toReadsRecords (hhosts i)
  rcases unmixed_run_leaves hplain hunmixed hrun hdone with ⟨lines, hcontent, hstored, hall⟩
  refine ⟨⟨lines, hstored, hcontent⟩, ?_, ?_⟩
  · intro i
    rw [hcontent]
    refine check_append_lines_iff hreads.toReadsLines ?_ ?_ content
    · intro entry hentry
      rcases (hstored.mem_entries hreads hhosts (hhosts i)).mp hentry with
        ⟨j, -, hhost, hport, rfl⟩
      have hname : endpointName (calls i).host (calls i).port =
          endpointName (calls j).host (calls j).port := by rw [hhost, hport]
      rw [hendpoints hname]
    · exact (hstored.mem_entries hreads hhosts (hhosts i)).mpr ⟨i, hall i, rfl, rfl, rfl⟩
  · intro host port hhost hother
    have hne : ∀ i, ¬ (host = (calls i).host ∧ port = (calls i).port) := by
      intro i
      rw [← endpointName_inj hhost (hhosts i)]
      exact hother i
    rw [hcontent]
    constructor
    · refine fun key => check_append_lines_of_nil hreads.toReadsLines ?_ content key
      rw [List.eq_nil_iff_forall_not_mem]
      intro entry hentry
      rcases (hstored.mem_entries hreads hhosts hhost).mp hentry with ⟨i, -, hh, hp, -⟩
      exact hne i ⟨hh, hp⟩
    · exact contains_append_lines_of_false
        (hstored.contains_eq_false hreads hhosts hempty hhost hne) content

end Readers

/-! ## Two calls on a file that is not there -/

theorem SampleKey.skipsBlankLines : SkipsBlankLines SampleKey.russh SampleKey.lineKey where
  toReadsLines := SampleKey.readsLines
  blank _ _ := rfl

def twoCalls : Bool → LearnCall SampleKey
  | false => { host := "a.example", port := 22, key := .ed25519 }
  | true => { host := "b.example", port := 22, key := .ecdsa }

/-- The second call finds the line of the first one without its newline, and ends it. -/
def overlappingTrace : List (RaceStep Bool) :=
  [.probe false, .append false, .append false, .append false, .probe true, .append true,
    .append true, .append true, .append true, .append false, .append true]

/-- Both keys are known although the appends overlap. -/
theorem overlapping_appends_store_records :
    ∃ s, (learnRace SampleKey.russh twoCalls).run (.start none) overlappingTrace = some s ∧
      ∀ i, SampleKey.russh.checkKnownHostsPath (some s.content) (twoCalls i).host
        (twoCalls i).port (twoCalls i).key = .ok true := by
  have hrun : ∃ s, (learnRace SampleKey.russh twoCalls).run (.start none) overlappingTrace =
      some s ∧ ∀ i, s.left i = some [] := ⟨_, rfl, by decide⟩
  rcases hrun with ⟨s, hrun, hdone⟩
  refine ⟨s, hrun, ?_⟩
  intro i
  have hendpoints : Function.Injective fun i =>
      endpointName (twoCalls i).host (twoCalls i).port := by
    intro i j hname
    cases i <;> cases j <;> first | rfl | exact absurd hname (by decide)
  obtain ⟨-, hknown, -⟩ := unmixed_appends_store_records SampleKey.skipsBlankLines
    (by decide) (by decide) hendpoints (by decide +kernel) hrun hdone
  refine (hknown i).mpr ⟨"", rfl, ?_⟩
  intro entry hentry
  cases hentry

/-- Both calls look at the missing file and then append in turns. -/
def mixedTrace : List (RaceStep Bool) :=
  [.probe false, .probe true, .append false, .append true, .append false, .append true,
    .append false, .append true, .append false, .append true]

/-- A line for other names is no entry, whatever stands behind the names. -/
theorem SampleKey.lineKey_eq_none {names rest : List Char} {host : String} {port : UInt16}
    (hblank : ' ' ∉ names) (hother : matchHostname (endpointName host port) names = false) :
    lineKey host port (names ++ ' ' :: rest) = none := by
  rw [lineKey, List.splitOn_append_cons_self_of_not_mem hblank]
  split
  · rfl
  · split
    · rename_i hfields
      obtain ⟨rfl, -⟩ := List.cons.inj hfields
      simp [hother]
    · rfl

/-- A line for other names with a blank line behind it has no entry. -/
theorem SampleKey.entries_other_names {names rest : List Char} {host : String} {port : UInt16}
    (hblank : ' ' ∉ names) (hnewline : '\n' ∉ names ++ ' ' :: rest)
    (hother : matchHostname (endpointName host port) names = false) :
    entries lineKey (String.ofList (Text.unlines [names ++ ' ' :: rest, []])) host port = [] := by
  have hlines : ∀ line ∈ [names ++ ' ' :: rest, []], '\n' ∉ line := by
    simpa using hnewline
  have hempty := SampleKey.skipsBlankLines.blank host port
  rw [entries, String.toList_ofList, Text.rawLines_unlines hlines]
  simp [lineKey_eq_none hblank hother, hempty]

/-- Both calls succeed, their records end up in one line, and neither key is found. -/
theorem mixed_appends_lose_key :
    ∃ s, (learnRace SampleKey.russh twoCalls).run (.start none) mixedTrace = some s ∧
      (∀ i, s.left i = some []) ∧
      ∀ i, SampleKey.russh.checkKnownHostsPath (some s.content) (twoCalls i).host
        (twoCalls i).port (twoCalls i).key = .ok false := by
  let pieces : List String := ["a.example", "b.example", " ", " ", SampleKey.ed25519.openssh,
    SampleKey.ecdsa.openssh, "\n", "\n"]
  let rest : List Char := ' ' :: SampleKey.ed25519.openssh.toList ++ SampleKey.ecdsa.openssh.toList
  have hnewline : '\n' ∉ "a.exampleb.example".toList ++ ' ' :: rest := by
    simp [rest, SampleKey.newline_not_mem_openssh]
  have htext : String.ofList (Text.unlines ["a.exampleb.example".toList ++ ' ' :: rest, []]) =
      String.join pieces := by
    rw [← String.toList_inj]
    simp [Text.unlines, rest, pieces, String.join_cons]
  have hrun : ∃ s, (learnRace SampleKey.russh twoCalls).run (.start none) mixedTrace = some s ∧
      (∀ i, s.left i = some []) ∧ s.content = (String.join pieces).toUTF8 := by
    refine ⟨_, rfl, by decide, ?_⟩
    simp only [pieces, String.join_cons, String.join_nil, String.toUTF8_eq_toByteArray,
      String.toByteArray_append, String.toByteArray_empty, ByteArray.append_empty,
      ← ByteArray.append_assoc]
    exact congrArg (· ++ _ ++ _ ++ _ ++ _ ++ _ ++ _ ++ _) ByteArray.empty_append
  rcases hrun with ⟨s, hrun, hdone, hcontent⟩
  refine ⟨s, hrun, hdone, ?_⟩
  intro i
  have hother : SampleKey.matchHostname (endpointName (twoCalls i).host (twoCalls i).port)
      "a.exampleb.example".toList = false := by
    cases i <;> decide +kernel
  rw [hcontent, ← htext, SampleKey.readsKnownHosts.text,
    SampleKey.entries_other_names (by decide) hnewline hother]
  rfl

end Rssh
