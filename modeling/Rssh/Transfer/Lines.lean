import Rssh.Transfer.Records
import Rssh.Transfer.Source

/-!
# The lines of the source, read by the sink

What `takeRecord` makes of the control lines that `sendEntry` writes: each of them is the
record it stands for, as long as it fits in a line of `maxControlLine` bytes.
-/

namespace Rssh.Scp

open Posix

/-! ## Texts -/

/-- The digits of a number are neither the blank between two fields nor the end of a line. -/
theorem digits_plain {radix n : Nat} (hzero : 0 < radix) (hradix : radix ≤ 10) {c : Char}
    (hc : c ∈ Nat.toDigits radix n) : c ≠ ' ' ∧ c ≠ '\n' := by
  have hdigit := Nat.isDigit_of_mem_toDigits hzero hradix hc
  constructor
  · rintro rfl
    cases hdigit
  · rintro rfl
    cases hdigit

theorem decimal_plain {n : Nat} {c : Char} (hc : c ∈ decimal n) : c ≠ ' ' ∧ c ≠ '\n' :=
  digits_plain (by decide) (by decide) hc

theorem octal4_plain {mode : Nat} {c : Char} (hc : c ∈ octal4 mode) : c ≠ ' ' ∧ c ≠ '\n' := by
  rcases List.mem_append.mp hc with hc | hc
  · rw [(List.mem_replicate.mp hc).2]
    decide
  · exact digits_plain (by decide) (by decide) hc

/-- The three fields of a control line are read back; a name may have blanks. -/
theorem parseFields_text {mode size : Nat} (name : List Char) (hmode : mode ≤ u32Max)
    (hsize : size < 2 ^ 64) :
    parseFields (octal4 mode ++ ' ' :: decimal size ++ ' ' :: name) =
      some ⟨mode &&& 0o777, size, name⟩ := by
  -- the first two blanks end the numbers, which have none themselves
  have hoctal : ' ' ∉ octal4 mode := fun hmem => (octal4_plain hmem).1 rfl
  have hdecimal : ' ' ∉ decimal size := fun hmem => (decimal_plain hmem).1 rfl
  have hmode' : Text.parseUnsigned 8 u32Max (octal4 mode) = some mode :=
    Text.parseUnsigned_zeros_toDigits _ (by decide) (by decide) hmode
  have hsize' : Text.parseUnsigned 10 (2 ^ 64 - 1) (decimal size) = some size :=
    Text.parseUnsigned_toDigits (by decide) (by decide) (by omega)
  simp only [parseFields, List.append_assoc, List.cons_append,
    Text.splitOnce_append hoctal, Text.splitOnce_append hdecimal, hmode', hsize']

/-! ## Bytes -/

/-- An ASCII character is one byte, its own number. -/
theorem encodeUtf8_ascii {c : Char} (h : c.toNat < 128) :
    Text.encodeUtf8 [c] = [UInt8.ofNat c.toNat] := by
  have hc : c.val.toNat ≤ 127 := by
    have : c.val.toNat = c.toNat := rfl
    omega
  simp only [Text.encodeUtf8, List.flatMap_cons, List.flatMap_nil, List.append_nil,
    String.utf8EncodeChar, if_pos hc]
  rfl

/-- A character takes at most four bytes. -/
theorem encodeUtf8_length_le (s : List Char) : (Text.encodeUtf8 s).length ≤ 4 * s.length := by
  induction s with
  | nil => simp [Text.encodeUtf8]
  | cons c s ih =>
      have hc : (String.utf8EncodeChar c).length ≤ 4 := by
        simp only [String.utf8EncodeChar]
        split_ifs <;> simp
      simp only [Text.encodeUtf8, List.flatMap_cons, List.length_append, List.length_cons] at ih ⊢
      omega

/-- A text that starts with an ASCII character and ends in a newline. -/
theorem encodeUtf8_framed {kind : Char} (hkind : kind.toNat < 128) (text : List Char) :
    Text.encodeUtf8 (kind :: text ++ ['\n']) =
      UInt8.ofNat kind.toNat :: Text.encodeUtf8 text ++ [10] := by
  have hcons : kind :: text ++ ['\n'] = [kind] ++ text ++ ['\n'] := rfl
  rw [hcons, Text.encodeUtf8_append, Text.encodeUtf8_append, encodeUtf8_ascii hkind]
  rfl

/-- In UTF-8 a newline byte stands for a newline only. -/
theorem newline_notMem_framed {kind : Char} (hkind : kind.toNat < 128) (hnewline : kind ≠ '\n')
    {text : List Char} (htext : '\n' ∉ text) :
    10 ∉ UInt8.ofNat kind.toNat :: Text.encodeUtf8 text := by
  have hbytes : UInt8.ofNat kind.toNat :: Text.encodeUtf8 text =
      Text.encodeUtf8 ([kind] ++ text) := by
    rw [Text.encodeUtf8_append, encodeUtf8_ascii hkind]
    rfl
  rw [hbytes]
  intro hmem
  rcases List.mem_append.mp (Text.newline_mem_encodeUtf8 hmem) with hmem | hmem
  · exact hnewline (List.mem_singleton.mp hmem).symm
  · exact htext hmem

/-- The first line of a stream that starts with a framed text. -/
theorem takeLine_framed {kind : Char} (hkind : kind.toNat < 128) (hnewline : kind ≠ '\n')
    {text : List Char} (htext : '\n' ∉ text) (rest : List UInt8) :
    takeLine (Text.encodeUtf8 (kind :: text ++ ['\n']) ++ rest) =
      if (Text.encodeUtf8 (kind :: text ++ ['\n'])).length ≤ maxControlLine then
        some (Text.encodeUtf8 (kind :: text ++ ['\n']), rest)
      else none := by
  have hstream : Text.encodeUtf8 (kind :: text ++ ['\n']) ++ rest =
      (UInt8.ofNat kind.toNat :: Text.encodeUtf8 text) ++ 10 :: rest := by
    rw [encodeUtf8_framed hkind]
    simp
  rw [hstream, takeLine_line (newline_notMem_framed hkind hnewline htext),
    encodeUtf8_framed hkind]
  simp only [List.length_append, List.length_cons, List.length_nil, List.cons_append,
    Nat.lt_iff_add_one_le]

/-! ## Control lines -/

/-- The text of a control line between its kind and its newline. -/
def controlText (mode size : Nat) (name : List Char) : List Char :=
  octal4 mode ++ ' ' :: decimal size ++ ' ' :: name

/-- A control line is an ASCII kind, a text and a newline, so `takeLine_framed` takes it. -/
theorem controlLine_eq (kind : Char) (mode size : Nat) (name : List Char) :
    controlLine kind mode size name =
      Text.encodeUtf8 (kind :: controlText mode size name ++ ['\n']) := by
  simp [controlLine, controlText]

/-- A name that `validate_name` accepts cannot end its line early. -/
theorem validateName_newline {name : List Char} (h : validateName name = true) :
    '\n' ∉ name := by
  intro hmem
  simp only [validateName, Bool.and_eq_true, Bool.not_eq_true', List.any_eq_false] at h
  exact h.2 '\n' hmem (by decide)

theorem controlText_newline {mode size : Nat} {name : List Char} (h : '\n' ∉ name) :
    '\n' ∉ controlText mode size name := by
  intro hmem
  simp only [controlText, List.append_assoc, List.cons_append, List.mem_append,
    List.mem_cons] at hmem
  rcases hmem with hmem | heq | hmem | heq | hmem
  · exact (octal4_plain hmem).2 rfl
  · cases heq
  · exact (decimal_plain hmem).2 rfl
  · cases heq
  · exact h hmem

/-- What the source writes in a control line is what the sink reads, with the permission bits alone.
-/
theorem parseControl_line {kind : Char} (hkind : kind.toNat < 128) {mode size : Nat}
    (name : List Char) (hmode : mode ≤ u32Max) (hsize : size < 2 ^ 64) :
    parseControl (controlLine kind mode size name) (UInt8.ofNat kind.toNat) =
      some ⟨mode &&& 0o777, size, name⟩ := by
  rw [controlLine_eq, encodeUtf8_framed hkind]
  have hmiddle : ((UInt8.ofNat kind.toNat ::
      Text.encodeUtf8 (controlText mode size name) ++ [10]).drop 1).dropLast =
        Text.encodeUtf8 (controlText mode size name) := by
    simp
  simp only [parseControl, hmiddle, Text.decodeUtf8_encodeUtf8, Option.bind_some]
  have hlast : (UInt8.ofNat kind.toNat ::
      Text.encodeUtf8 (controlText mode size name) ++ [10]).getLast? = some 10 :=
    List.getLast?_concat
  rw [if_pos ⟨rfl, hlast⟩, controlText, parseFields_text name hmode hsize]

theorem and_permissions_le (mode : Nat) : mode &&& 0o777 ≤ u32Max :=
  Nat.and_le_right.trans (by decide)

@[simp] theorem and_permissions_idem (mode : Nat) : mode &&& 0o777 &&& 0o777 = mode &&& 0o777 := by
  rw [Nat.and_assoc, Nat.and_self]

/-- The sink takes a control line in one piece unless it is longer than the limit for lines. -/
theorem takeLine_controlLine {kind : Char} (hkind : kind.toNat < 128) (hnewline : kind ≠ '\n')
    (mode size : Nat) {name : List Char} (hname : validateName name = true)
    (rest : List UInt8) :
    takeLine (controlLine kind mode size name ++ rest) =
      if (controlLine kind mode size name).length ≤ maxControlLine then
        some (controlLine kind mode size name, rest)
      else none := by
  rw [controlLine_eq]
  exact takeLine_framed hkind hnewline (controlText_newline (validateName_newline hname)) rest

theorem controlLine_head? {kind : Char} (hkind : kind.toNat < 128) (mode size : Nat)
    (name : List Char) :
    (controlLine kind mode size name).head? = some (UInt8.ofNat kind.toNat) := by
  rw [controlLine_eq, encodeUtf8_framed hkind]
  rfl

/-- A directory's line is taken as its record, if it is not too long. -/
theorem takeRecord_directoryLine (mode : Nat) {name : List Char}
    (hname : validateName name = true) (rest : List UInt8) :
    takeRecord (directoryLine (mode &&& 0o777) name ++ rest) =
      if (directoryLine (mode &&& 0o777) name).length ≤ maxControlLine then
        some (.directory (mode &&& 0o777) name, rest)
      else none := by
  have hkind : 'D'.toNat < 128 := by decide
  have hline := takeLine_controlLine hkind (by decide) (mode &&& 0o777) 0 hname rest
  have hhead : (directoryLine (mode &&& 0o777) name).head? = some 68 :=
    controlLine_head? hkind _ _ _
  have hcontrol : parseControl (directoryLine (mode &&& 0o777) name) 68 =
      some ⟨mode &&& 0o777 &&& 0o777, 0, name⟩ :=
    parseControl_line hkind name (and_permissions_le mode) (by decide)
  have hrecord : recordOf (directoryLine (mode &&& 0o777) name) rest =
      some (.directory (mode &&& 0o777) name, rest) := by
    simp [recordOf, hhead, directoryRecord, hcontrol, portableControlName_of_valid hname]
  rw [← directoryLine] at hline
  simp only [takeRecord, hline]
  split_ifs
  · exact hrecord
  · rfl

/-- A file's line is taken with the bytes behind it and their acknowledgement, if it is not too
long. -/
theorem takeRecord_fileLine (mode : Nat) {name : List Char} (hname : validateName name = true)
    {data : List UInt8} (hdata : data.length ≤ maxFileSize) (rest : List UInt8) :
    takeRecord (fileLine (mode &&& 0o777) data.length name ++ (data ++ 0 :: rest)) =
      if (fileLine (mode &&& 0o777) data.length name).length ≤ maxControlLine then
        some (.file (mode &&& 0o777) name data, rest)
      else none := by
  have hkind : 'C'.toNat < 128 := by decide
  have hline := takeLine_controlLine hkind (by decide) (mode &&& 0o777) data.length hname
    (data ++ 0 :: rest)
  have hhead : (fileLine (mode &&& 0o777) data.length name).head? = some 67 :=
    controlLine_head? hkind _ _ _
  have hsize : data.length < 2 ^ 64 := lt_of_le_of_lt hdata (by decide)
  have hcontrol : parseControl (fileLine (mode &&& 0o777) data.length name) 67 =
      some ⟨mode &&& 0o777 &&& 0o777, data.length, name⟩ :=
    parseControl_line hkind name (and_permissions_le mode) hsize
  -- a `C` line is not taken for the end of a directory
  have hend : fileLine (mode &&& 0o777) data.length name ≠ [69, 10] := by
    intro heq
    rw [heq] at hhead
    cases hhead
  -- the size in the line says how many of the bytes behind it are the file's
  have hrecord : recordOf (fileLine (mode &&& 0o777) data.length name) (data ++ 0 :: rest) =
      some (.file (mode &&& 0o777) name data, rest) := by
    simp [recordOf, hhead, hend, fileRecord, hcontrol, portableControlName_of_valid hname,
      hdata]
  rw [← fileLine] at hline
  simp only [takeRecord, hline]
  -- a line over the limit is refused whatever follows it
  split_ifs
  · exact hrecord
  · rfl

/-- The end of a directory is taken as its record. -/
theorem takeRecord_endLine (rest : List UInt8) : takeRecord (endLine ++ rest) =
    some (.close, rest) := by
  have hline : takeLine (endLine ++ rest) = some ([69, 10], rest) := by
    have hshort : [(69 : UInt8)].length < maxControlLine := by decide
    have hsplit := takeLine_line (show 10 ∉ [(69 : UInt8)] by decide) rest
    rw [if_pos hshort] at hsplit
    exact hsplit
  simp [takeRecord, hline, recordOf]

/-! ## Times -/

/-- The text of a `T` line between its kind and its newline. -/
def timesText (modified accessed : UInt64) : List Char :=
  decimal modified.toNat ++ ' ' :: (['0'] ++ ' ' :: (decimal accessed.toNat ++ ' ' :: ['0']))

/-- A line of times has the frame of a control line. -/
theorem timesLine_eq (modified accessed : UInt64) :
    timesLine modified accessed =
      Text.encodeUtf8 ('T' :: timesText modified accessed ++ ['\n']) := by
  simp [timesLine, timesText]

/-- A word of digits. -/
def IsNumber (word : List Char) : Prop := word ≠ [] ∧ ∀ c ∈ word, isAsciiWhitespace c = false

/-- A number in decimal is not empty and has no blank. -/
theorem decimal_isNumber (n : Nat) : IsNumber (decimal n) := by
  refine ⟨Nat.toDigits_ne_nil, fun c hc => ?_⟩
  have hdigit := Nat.isDigit_of_mem_toDigits (by decide) (by decide) hc
  simp only [isAsciiWhitespace, Bool.or_eq_false_iff, beq_eq_false_iff_ne]
  refine ⟨⟨⟨⟨?_, ?_⟩, ?_⟩, ?_⟩, ?_⟩ <;> rintro rfl <;> cases hdigit

/-- A blank ends a number. -/
theorem splitAsciiWhitespace_cons {word : List Char} (hword : IsNumber word)
    (rest : List Char) :
    splitAsciiWhitespace (word ++ ' ' :: rest) = word :: splitAsciiWhitespace rest := by
  simp only [splitAsciiWhitespace]
  rw [List.splitOnP_append_cons_of_forall_mem hword.2 ' ' (by decide)]
  simp [hword.1]

theorem splitAsciiWhitespace_last {word : List Char} (hword : IsNumber word) :
    splitAsciiWhitespace word = [word] := by
  simp only [splitAsciiWhitespace]
  rw [List.splitOnP_eq_singleton hword.2]
  simp [hword.1]

/-- The sink accepts the times that the source writes, whatever they are. -/
theorem parseTimes_timesLine (modified accessed : UInt64) :
    parseTimes (timesLine modified accessed) = true := by
  have hzero : IsNumber ['0'] := decimal_isNumber 0
  -- the seconds and microseconds of two times
  have hfields : splitAsciiWhitespace (timesText modified accessed) =
      [decimal modified.toNat, ['0'], decimal accessed.toNat, ['0']] := by
    rw [timesText, splitAsciiWhitespace_cons (decimal_isNumber _),
      splitAsciiWhitespace_cons hzero, splitAsciiWhitespace_cons (decimal_isNumber _),
      splitAsciiWhitespace_last hzero]
  have hparse : ∀ n : UInt64,
      (Text.parseUnsigned 10 (2 ^ 64 - 1) (decimal n.toNat)).isSome = true := by
    intro n
    have hn := n.toNat_lt
    rw [decimal, Text.parseUnsigned_toDigits (by decide) (by decide) (by omega)]
    rfl
  -- `parse_times` drops the kind and the newline
  have htext : (('T' :: timesText modified accessed ++ ['\n']).drop 1).dropLast =
      timesText modified accessed := by
    simp
  have hparse₀ : (Text.parseUnsigned 10 (2 ^ 64 - 1) ['0']).isSome = true := hparse 0
  simp only [parseTimes, timesLine_eq, Text.decodeUtf8_encodeUtf8, htext, hfields, List.all_cons,
    List.all_nil, hparse, hparse₀]
  rfl

/-- A line of times is always short enough to be taken. -/
theorem takeRecord_timesLine (modified accessed : UInt64) (rest : List UInt8) :
    takeRecord (timesLine modified accessed ++ rest) = some (.times, rest) := by
  have hkind : 'T'.toNat < 128 := by decide
  -- neither the digits nor the blanks and zeros between them end the line
  have htext : '\n' ∉ timesText modified accessed := by
    intro hmem
    simp only [timesText, List.cons_append, List.nil_append, List.mem_append, List.mem_cons,
      List.not_mem_nil, or_false] at hmem
    rcases hmem with hmem | heq | heq | heq | hmem | heq | heq
    · exact (decimal_plain hmem).2 rfl
    · cases heq
    · cases heq
    · cases heq
    · exact (decimal_plain hmem).2 rfl
    · cases heq
    · cases heq
  -- the longest time there is has twenty digits
  have hdigits : ∀ n : UInt64, (decimal n.toNat).length ≤ 20 := by
    intro n
    have hn := n.toNat_lt
    exact (Nat.length_toDigits_le_iff (by decide) (by decide)).mpr (by omega)
  have hshort : (timesLine modified accessed).length ≤ maxControlLine := by
    have hbytes := encodeUtf8_length_le ('T' :: timesText modified accessed ++ ['\n'])
    have hmodified := hdigits modified
    have haccessed := hdigits accessed
    rw [timesLine_eq]
    simp only [timesText, List.length_append, List.length_cons, List.length_nil] at hbytes ⊢
    simp only [maxControlLine]
    omega
  have hline := takeLine_framed hkind (by decide) htext rest
  rw [← timesLine_eq, if_pos hshort] at hline
  have hhead : (timesLine modified accessed).head? = some 84 := by
    rw [timesLine_eq, encodeUtf8_framed hkind]
    rfl
  simp [takeRecord, hline, recordOf, hhead, parseTimes_timesLine]

end Rssh.Scp
