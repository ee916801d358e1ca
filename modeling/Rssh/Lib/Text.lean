import Mathlib.Algebra.Ring.Nat
import Mathlib.Data.List.Basic

/-!
# Text as Rust's `str` reads it

The string functions of Rust's standard library that differ from Lean's: the
`White_Space` property, `str::trim`, `str::lines`, the first item of
`str::split_whitespace`, `str::split_once` and the parsing of unsigned integers. A
text is handled as its list of characters.
-/

namespace Text

/-- The Unicode `White_Space` property, as `char::is_whitespace` decides it. -/
def isWhitespace (c : Char) : Bool :=
  let n := c.toNat
  (0x09 ≤ n && n ≤ 0x0D) || n == 0x20 || n == 0x85 || n == 0xA0 || n == 0x1680 ||
    (0x2000 ≤ n && n ≤ 0x200A) || n == 0x2028 || n == 0x2029 || n == 0x202F ||
    n == 0x205F || n == 0x3000

/-- `str::trim`. -/
def trim (s : List Char) : List Char :=
  ((s.dropWhile isWhitespace).reverse.dropWhile isWhitespace).reverse

/-- The first item of `str::split_whitespace`: the maximal run of other
characters after the leading whitespace. -/
def firstToken (s : List Char) : Option (List Char) :=
  match (s.dropWhile isWhitespace).takeWhile (!isWhitespace ·) with
  | [] => none
  | token => some token

/-- The lines of a text as a line reader sees them, each without its newline; an
unterminated last line counts, an empty one does not. -/
def rawLines (s : List Char) : List (List Char) :=
  let parts := s.splitOn '\n'
  if parts.getLast? = some [] then parts.dropLast else parts

/-- Drop one carriage return at the end of a line. -/
def stripCr (line : List Char) : List Char :=
  if line.getLast? = some '\r' then line.dropLast else line

/-- `str::lines`: only a line that was ended by a newline loses its carriage
return. -/
def lines (s : List Char) : List (List Char) :=
  let parts := s.splitOn '\n'
  parts.dropLast.map stripCr ++ (parts.getLast?.filter (· ≠ [])).toList

example : lines "a\r\n\nb\r".toList = ["a".toList, [], "b\r".toList] := by decide

/-- The UTF-8 bytes of a text. -/
def encodeUtf8 (s : List Char) : List UInt8 := s.flatMap String.utf8EncodeChar

/-- `str::from_utf8`. -/
def decodeUtf8 (bytes : List UInt8) : Option (List Char) :=
  bytes.toByteArray.utf8Decode?.map Array.toList

/-- A UTF-8 sequence that has begun: the bits read so far, the bytes that are missing behind the
next one, and the range of the next one. -/
structure Utf8Pending where
  value : Nat
  missing : Nat
  low : UInt8 := 0x80
  high : UInt8 := 0xBF

/-- A byte that begins a character: the character, or the sequence that it begins. -/
def utf8Lead (byte : UInt8) : Option (Char ⊕ Utf8Pending) :=
  if byte < 0x80 then some (.inl (Char.ofNat byte.toNat))
  else if 0xC2 ≤ byte ∧ byte ≤ 0xDF then some (.inr { value := byte.toNat % 32, missing := 0 })
  else if byte = 0xE0 then some (.inr { value := 0, missing := 1, low := 0xA0 })
  else if byte = 0xED then some (.inr { value := 13, missing := 1, high := 0x9F })
  else if 0xE1 ≤ byte ∧ byte ≤ 0xEF then some (.inr { value := byte.toNat % 16, missing := 1 })
  else if byte = 0xF0 then some (.inr { value := 0, missing := 2, low := 0x90 })
  else if 0xF1 ≤ byte ∧ byte ≤ 0xF3 then some (.inr { value := byte.toNat % 8, missing := 2 })
  else if byte = 0xF4 then some (.inr { value := 4, missing := 2, high := 0x8F })
  else none

/-- `String::from_utf8_lossy`, behind a sequence that has begun: every longest part of a sequence
that is not continued stands for one replacement character. -/
def lossyFrom : Option Utf8Pending → List UInt8 → List Char
  | none, [] => []
  | some _, [] => ['\uFFFD']
  | none, byte :: bytes =>
      match utf8Lead byte with
      | some (.inl c) => c :: lossyFrom none bytes
      | some (.inr pending) => lossyFrom (some pending) bytes
      | none => '\uFFFD' :: lossyFrom none bytes
  | some pending, byte :: bytes =>
      if pending.low ≤ byte ∧ byte ≤ pending.high then
        let value := pending.value * 64 + byte.toNat % 64
        match pending.missing with
        | 0 => Char.ofNat value :: lossyFrom none bytes
        | missing + 1 => lossyFrom (some { value, missing }) bytes
      else
        match utf8Lead byte with
        | some (.inl c) => '\uFFFD' :: c :: lossyFrom none bytes
        | some (.inr next) => '\uFFFD' :: lossyFrom (some next) bytes
        | none => '\uFFFD' :: '\uFFFD' :: lossyFrom none bytes

/-- `String::from_utf8_lossy`. -/
def fromUtf8Lossy (bytes : List UInt8) : List Char := lossyFrom none bytes

example : fromUtf8Lossy [0x61, 0xE2, 0x82, 0xAC, 0xE2, 0x82, 0x62, 0xFF] =
    ['a', '€', '\uFFFD', 'b', '\uFFFD'] := by decide

/-- `str::split_once`: the parts around the first occurrence of a character. -/
def splitOnce (separator : Char) : List Char → Option (List Char × List Char)
  | [] => none
  | c :: rest =>
      if c = separator then some ([], rest)
      else (splitOnce separator rest).map fun (before, after) => (c :: before, after)

/-- The value of a digit below a radix of at most ten. -/
def digit? (radix : Nat) (c : Char) : Option Nat :=
  if '0'.toNat ≤ c.toNat ∧ c.toNat - '0'.toNat < radix then some (c.toNat - '0'.toNat) else none

/-- The digits after a value read so far; overflow is checked at every digit. -/
def parseDigits (radix max : Nat) : Nat → List Char → Option Nat
  | value, [] => some value
  | value, c :: rest =>
      match digit? radix c with
      | none => none
      | some digit =>
          if value * radix + digit ≤ max then parseDigits radix max (value * radix + digit) rest
          else none

/-- `from_str_radix` of an unsigned type with the given largest value: one plus sign is
allowed before the digits. -/
def parseUnsigned (radix max : Nat) (s : List Char) : Option Nat :=
  match s with
  | [] => none
  | c :: rest =>
      if c = '+' ∧ rest ≠ [] then parseDigits radix max 0 rest
      else parseDigits radix max 0 (c :: rest)

example : parseUnsigned 10 65535 "+65535".toList = some 65535 := by decide
example : parseUnsigned 8 511 "0855".toList = none := by decide

/-! ## First tokens -/

/-- A word followed by a blank is the first token. -/
theorem firstToken_append_cons {word rest : List Char} {blank : Char} (hne : word ≠ [])
    (hword : ∀ c ∈ word, isWhitespace c = false) (hblank : isWhitespace blank = true) :
    firstToken (word ++ blank :: rest) = some word := by
  rcases List.exists_cons_of_ne_nil hne with ⟨c, cs, rfl⟩
  have hdrop : ((c :: cs) ++ blank :: rest).dropWhile isWhitespace =
      (c :: cs) ++ blank :: rest := by
    simp [hword c (by simp)]
  have htake : ((c :: cs) ++ blank :: rest).takeWhile (!isWhitespace ·) = c :: cs := by
    rw [List.takeWhile_append_of_pos]
    · simp [hblank]
    · intro d hd
      simp [hword d hd]
  simp only [firstToken, hdrop, htake]

/-- Blanks at the end of a line are not part of its first token. -/
theorem firstToken_concat_blank {line : List Char} {blank : Char}
    (hblank : isWhitespace blank = true) : firstToken (line ++ [blank]) = firstToken line := by
  induction line with
  | nil => simp [firstToken, hblank]
  | cons c cs ih =>
      cases hc : isWhitespace c with
      | true => simpa [firstToken, hc] using ih
      | false =>
          have htake : ∀ l : List Char, (l ++ [blank]).takeWhile (!isWhitespace ·) =
              l.takeWhile (!isWhitespace ·) := by
            intro l
            induction l with
            | nil => simp [hblank]
            | cons d ds ihd => cases hd : isWhitespace d <;> simp [hd, ihd]
          simp [firstToken, hc, htake]

/-- A carriage return at the end of a line is a blank, which no token has. -/
@[simp] theorem firstToken_stripCr (line : List Char) :
    firstToken (stripCr line) = firstToken line := by
  unfold stripCr
  split
  · rename_i hlast
    have hline : line = line.dropLast ++ ['\r'] := (List.dropLast_append_getLast? _ hlast).symm
    rw [hline, List.dropLast_concat, firstToken_concat_blank (by decide)]
  · rfl

/-- Carriage returns and a missing last newline make no difference to the first
tokens of a text's lines. -/
theorem filterMap_firstToken_lines (s : List Char) :
    (lines s).filterMap firstToken = (rawLines s).filterMap firstToken := by
  obtain ⟨init, last, hparts⟩ := List.eq_nil_or_concat (s.splitOn '\n')
    |>.resolve_left (List.splitOn_ne_nil _ _)
  cases last with
  | nil => simp [lines, rawLines, hparts, List.filterMap_map]
  | cons c cs => simp [lines, rawLines, hparts, List.filterMap_map, Option.filter]

/-! ## Appending a line -/

/-- The newline that ends an unterminated last line. -/
def separator (s : List Char) : List Char :=
  match s.getLast? with
  | none => []
  | some '\n' => []
  | some _ => ['\n']

/-- A text with one more line, on a line of its own. -/
def appendLine (s line : List Char) : List Char :=
  s ++ separator s ++ line ++ ['\n']

/-- A text that ends in a newline has the lines before that newline. -/
theorem rawLines_concat_newline (s : List Char) : rawLines (s ++ ['\n']) = s.splitOn '\n' := by
  simp [rawLines, List.splitOn_append_cons_self]

/-- Only an empty or a terminated text has an empty last part. -/
theorem getLast?_of_splitOn_getLast? {s : List Char}
    (h : (s.splitOn '\n').getLast? = some []) : s = [] ∨ s.getLast? = some '\n' := by
  induction s with
  | nil => exact .inl rfl
  | cons c cs ih =>
      refine .inr ?_
      rw [List.splitOn_cons_eq_if_modifyHead] at h
      rcases List.exists_cons_of_ne_nil (List.splitOn_ne_nil '\n' cs) with ⟨head, tail, hparts⟩
      rw [hparts] at h ih
      split at h
      · -- the first character ends a line of its own
        rename_i hc
        rcases ih (by simpa using h) with rfl | hlast
        · simpa using hc
        · simp [List.getLast?_cons, hlast]
      · -- the first character belongs to the first part
        cases tail with
        | nil => simp at h
        | cons next tail =>
            rcases ih (by simpa using h) with rfl | hlast
            · simp at hparts
            · simp [List.getLast?_cons, hlast]

/-- The characters of a part are characters of the text. -/
theorem mem_of_mem_splitOn {s part : List Char} {sep c : Char} (hpart : part ∈ s.splitOn sep)
    (hc : c ∈ part) : c ∈ s := by
  induction s generalizing part with
  | nil => simp_all
  | cons d ds ih =>
      rw [List.splitOn_cons_eq_if_modifyHead] at hpart
      rcases List.exists_cons_of_ne_nil (List.splitOn_ne_nil sep ds) with ⟨head, tail, hparts⟩
      rw [hparts] at hpart ih
      split at hpart
      · rcases List.mem_cons.mp hpart with rfl | hpart
        · simp at hc
        · exact List.mem_cons_of_mem _ (ih hpart hc)
      · rcases List.mem_cons.mp hpart with rfl | hpart
        · rcases List.mem_cons.mp hc with rfl | hc
          · exact List.mem_cons_self
          · exact List.mem_cons_of_mem _ (ih List.mem_cons_self hc)
        · exact List.mem_cons_of_mem _ (ih (List.mem_cons_of_mem _ hpart) hc)

/-- Behind its separator, a text keeps its lines. -/
theorem rawLines_append_separator (s t : List Char) :
    rawLines (s ++ separator s ++ t) = rawLines s ++ rawLines t := by
  -- behind a newline a new line begins
  have hterminated (init : List Char) :
      rawLines (init ++ ['\n'] ++ t) = init.splitOn '\n' ++ rawLines t := by
    rw [List.append_assoc, List.singleton_append, rawLines, rawLines,
      List.splitOn_append_cons_self]
    have hne := List.splitOn_ne_nil '\n' t
    rw [List.getLast?_append_of_ne_nil _ hne]
    split
    · rw [List.dropLast_append_of_ne_nil hne]
    · rfl
  rcases List.eq_nil_or_concat s with rfl | ⟨init, last, rfl⟩
  · simp [rawLines, separator]
  · simp only [List.concat_eq_append]
    by_cases hlast : last = '\n'
    · subst hlast
      have hsep : separator (init ++ ['\n']) = [] := by simp [separator]
      rw [hsep, List.append_nil, rawLines_concat_newline, hterminated]
    · -- the separator ends the last line
      have hsep : separator (init ++ [last]) = ['\n'] := by simp [separator]
      have hraw : rawLines (init ++ [last]) = (init ++ [last]).splitOn '\n' := by
        refine if_neg ?_
        intro h
        rcases getLast?_of_splitOn_getLast? h with h | h <;> simp_all
      rw [hsep, hraw, hterminated]

/-- The lines of a text after an append: the old ones, unchanged, and the new one. -/
theorem rawLines_appendLine (s : List Char) {line : List Char} (hline : '\n' ∉ line) :
    rawLines (appendLine s line) = rawLines s ++ [line] := by
  rw [appendLine, List.append_assoc, rawLines_append_separator, rawLines_concat_newline,
    List.splitOn_eq_singleton hline]

/-- The given lines, each with its newline. -/
def unlines (lines : List (List Char)) : List Char :=
  lines.flatMap (· ++ ['\n'])

/-- Lines without a newline inside are read back. -/
theorem rawLines_unlines {lines : List (List Char)} (h : ∀ line ∈ lines, '\n' ∉ line) :
    rawLines (unlines lines) = lines := by
  induction lines with
  | nil => rfl
  | cons line lines ih =>
      have hline : '\n' ∉ line := h line List.mem_cons_self
      have hlines : ∀ line ∈ lines, '\n' ∉ line := fun line hmem =>
        h line (List.mem_cons_of_mem _ hmem)
      have hsep : separator (line ++ ['\n']) = [] := by simp [separator]
      have hsplit := rawLines_append_separator (line ++ ['\n']) (unlines lines)
      rw [hsep, List.append_nil, rawLines_concat_newline, List.splitOn_eq_singleton hline,
        ih hlines] at hsplit
      simpa [unlines] using hsplit

/-! ## The last byte of an encoded text -/

/-- Only the encoding of a newline ends in the byte 10: a longer encoding ends in a
continuation byte. -/
theorem back?_utf8Encode_singleton (c : Char) :
    ∃ b, [c].utf8Encode.data.back? = some b ∧ (b = 10 ↔ c = '\n') := by
  have hc : c = '\n' ↔ c.val.toNat = 10 := by
    rw [Char.ext_iff, ← UInt32.toNat_inj]
    rfl
  -- a continuation byte is no newline
  have hcont : UInt8.ofNat (c.val.toNat % 64 + 128) ≠ 10 := by
    intro h
    have := congrArg UInt8.toNat h
    simp only [UInt8.toNat_ofNat', UInt8.toNat_ofNat] at this
    omega
  rw [hc, List.utf8Encode_singleton, String.utf8EncodeChar]
  by_cases hascii : c.val.toNat ≤ 127
  · refine ⟨UInt8.ofNat c.val.toNat, ?_, ?_⟩
    · rw [if_pos hascii]
      simp
    · rw [← UInt8.toNat_inj]
      simp only [UInt8.toNat_ofNat', UInt8.toNat_ofNat]
      omega
  · refine ⟨UInt8.ofNat (c.val.toNat % 64 + 128), ?_, iff_of_false hcont (by omega)⟩
    simp only [hascii, if_false]
    split_ifs <;> simp

/-- The last byte of an encoded text tells whether the text ends in a newline. -/
theorem back?_toUTF8_push (s : String) (c : Char) :
    ∃ b, (s.push c).toUTF8.data.back? = some b ∧ (b = 10 ↔ c = '\n') := by
  rcases back?_utf8Encode_singleton c with ⟨b, hb, hb10⟩
  refine ⟨b, ?_, hb10⟩
  rw [String.toUTF8_eq_toByteArray, String.toByteArray_push, ByteArray.data_append,
    Array.back?_append, hb, Option.some_or]

/-! ## Encoded texts -/

theorem encodeUtf8_append (s t : List Char) :
    encodeUtf8 (s ++ t) = encodeUtf8 s ++ encodeUtf8 t := by
  simp [encodeUtf8]

/-- A digit is one byte. -/
theorem length_encodeUtf8_of_isDigit {s : List Char} (h : ∀ c ∈ s, c.isDigit = true) :
    (encodeUtf8 s).length = s.length := by
  induction s with
  | nil => rfl
  | cons c s ih =>
      have hc : c.utf8Size = 1 := by
        have hdigit := h c List.mem_cons_self
        simp only [Char.isDigit, Bool.and_eq_true, decide_eq_true_eq] at hdigit
        rw [Char.utf8Size, if_pos (UInt32.le_trans hdigit.2 (by decide))]
      have hrest := ih fun d hd => h d (List.mem_cons_of_mem c hd)
      rw [encodeUtf8, List.flatMap_cons, List.length_append, String.length_utf8EncodeChar, hc,
        List.length_cons]
      rw [encodeUtf8] at hrest
      omega

theorem decodeUtf8_encodeUtf8 (s : List Char) : decodeUtf8 (encodeUtf8 s) = some s := by
  have hbytes : (encodeUtf8 s).toByteArray = s.utf8Encode := rfl
  rw [decodeUtf8, hbytes, List.utf8Decode?_utf8Encode]
  simp

/-- Bytes followed by the start of a character are a text only if they are one by themselves. -/
theorem isValidUTF8_of_append {bytes more : ByteArray} (h : (bytes ++ more).IsValidUTF8)
    (hmore : ∀ hpos : 0 < more.size, more[0].IsUTF8FirstByte) : bytes.IsValidUTF8 := by
  let text : String := ⟨bytes ++ more, h⟩
  have hpos : (⟨bytes.size⟩ : String.Pos.Raw).IsValid text := by
    rw [String.Pos.Raw.isValid_iff_isUTF8FirstByte]
    by_cases hsize : 0 < more.size
    · have hlt : (⟨bytes.size⟩ : String.Pos.Raw) < text.rawEndPos := by
        simpa [String.Pos.Raw.lt_iff, text, ← String.size_toByteArray] using hsize
      refine .inr ⟨hlt, ?_⟩
      simpa [String.getUTF8Byte, text, ByteArray.getElem_append_right] using hmore hsize
    · have hzero : more.size = 0 := Nat.eq_zero_of_not_pos hsize
      refine .inl (String.Pos.Raw.ext ?_)
      simp [text, ← String.size_toByteArray, hzero]
  have hextract : ((bytes ++ more).extract 0 bytes.size).IsValidUTF8 :=
    hpos.isValidUTF8_extract_zero
  rwa [ByteArray.extract_append_eq_left rfl] at hextract

/-- Bytes behind a text are a text with it exactly when they are one. -/
theorem isValidUTF8_toUTF8_append (text : String) (bytes : ByteArray) :
    (text.toUTF8 ++ bytes).IsValidUTF8 ↔ bytes.IsValidUTF8 := by
  have hlist (s : List Char) : (s.utf8Encode ++ bytes).IsValidUTF8 ↔ bytes.IsValidUTF8 := by
    induction s with
    | nil => simp
    | cons c s ih =>
      rw [← List.singleton_append, List.utf8Encode_append, ByteArray.append_assoc,
        ByteArray.isValidUTF8_utf8Encode_singleton_append_iff, ih]
  have := hlist text.toList
  simpa using this

/-- Only the encoding of a newline has the byte 10. -/
theorem newline_mem_encodeUtf8 {s : List Char} (h : 10 ∈ encodeUtf8 s) : '\n' ∈ s := by
  rcases List.mem_flatMap.mp h with ⟨c, hc, hbyte⟩
  have hsmall : ∀ n : Nat, n < 256 → (10 : UInt8) = UInt8.ofNat n → n = 10 := by
    intro n hn heq
    have := congrArg UInt8.toNat heq
    simp only [UInt8.toNat_ofNat', UInt8.toNat_ofNat] at this
    omega
  -- the bytes of longer encodings are all larger
  have hval : c.val.toNat = 10 := by
    simp only [String.utf8EncodeChar] at hbyte
    split_ifs at hbyte with h₁ h₂ h₃
    · exact hsmall _ (by omega) (List.mem_singleton.mp hbyte)
    · simp only [List.mem_cons, List.not_mem_nil, or_false] at hbyte
      rcases hbyte with hb | hb <;> have := hsmall _ (by omega) hb <;> omega
    · simp only [List.mem_cons, List.not_mem_nil, or_false] at hbyte
      rcases hbyte with hb | hb | hb <;> have := hsmall _ (by omega) hb <;> omega
    · simp only [List.mem_cons, List.not_mem_nil, or_false] at hbyte
      rcases hbyte with hb | hb | hb | hb <;> have := hsmall _ (by omega) hb <;> omega
  have hnewline : c = '\n' := by
    rw [Char.ext_iff, ← UInt32.toNat_inj]
    exact hval
  exact hnewline ▸ hc

/-! ## Numbers -/

/-- Digits are read from the left. -/
theorem parseDigits_append (radix max value : Nat) (s t : List Char) :
    parseDigits radix max value (s ++ t) =
      (parseDigits radix max value s).bind fun value => parseDigits radix max value t := by
  induction s generalizing value with
  | nil => rfl
  | cons c s ih =>
      simp only [List.cons_append, parseDigits]
      split
      · rfl
      · split
        · exact ih _
        · rfl

theorem digit?_digitChar {radix n : Nat} (hradix : radix ≤ 10) (hn : n < radix) :
    digit? radix n.digitChar = some n := by
  have hchar := Nat.toNat_digitChar_of_lt_ten (show n < 10 by omega)
  have hzero : '0'.toNat = 48 := rfl
  simp only [digit?, hchar, hzero]
  rw [if_pos (by omega), Nat.add_sub_cancel_left]

/-- The digits of a number are read back as that number. -/
theorem parseDigits_toDigits {radix max n : Nat} (hone : 1 < radix) (hradix : radix ≤ 10)
    (hmax : n ≤ max) : parseDigits radix max 0 (Nat.toDigits radix n) = some n := by
  induction n using Nat.strongRecOn with
  | _ n ih =>
      by_cases hn : n < radix
      · simp [Nat.toDigits_of_lt_base hn, parseDigits, digit?_digitChar hradix hn, hmax]
      · have hle : radix ≤ n := by omega
        have hdiv : n / radix < n := Nat.div_lt_self (by omega) hone
        have hmod : n % radix < radix := Nat.mod_lt _ (by omega)
        have hsplit : n / radix * radix + n % radix = n := by
          rw [Nat.mul_comm]
          exact Nat.div_add_mod n radix
        rw [Nat.toDigits_of_base_le hone hle, parseDigits_append, ih _ hdiv (by omega)]
        simp [parseDigits, digit?_digitChar hradix hmod, hsplit, hmax]

/-- Zeros before the digits do not matter. -/
theorem parseUnsigned_zeros_toDigits {radix max n : Nat} (zeros : Nat) (hone : 1 < radix)
    (hradix : radix ≤ 10) (hmax : n ≤ max) :
    parseUnsigned radix max (List.replicate zeros '0' ++ Nat.toDigits radix n) = some n := by
  -- leading zeros change nothing
  have hzeros : parseDigits radix max 0 (List.replicate zeros '0') = some 0 := by
    have hdigit : digit? radix '0' = some 0 := by
      simp [digit?]
      omega
    induction zeros with
    | zero => rfl
    | succ zeros ih => simp [List.replicate_succ, parseDigits, hdigit, ih]
  have hparse : parseDigits radix max 0 (List.replicate zeros '0' ++ Nat.toDigits radix n) =
      some n := by
    rw [parseDigits_append, hzeros, Option.bind_some, parseDigits_toDigits hone hradix hmax]
  -- and there is no sign
  have hplus : '+' ∉ List.replicate zeros '0' ++ Nat.toDigits radix n := by
    intro hmem
    rcases List.mem_append.mp hmem with hmem | hmem
    · cases (List.mem_replicate.mp hmem).2
    · cases Nat.isDigit_of_mem_toDigits (by omega) hradix hmem
  cases hdigits : List.replicate zeros '0' ++ Nat.toDigits radix n with
  | nil => simp at hdigits
  | cons c rest =>
      have hc : c ≠ '+' := by
        rintro rfl
        exact hplus (hdigits ▸ List.mem_cons_self)
      rw [hdigits] at hparse
      simp only [parseUnsigned, hc, false_and, if_false, hparse]

theorem parseUnsigned_toDigits {radix max n : Nat} (hone : 1 < radix) (hradix : radix ≤ 10)
    (hmax : n ≤ max) : parseUnsigned radix max (Nat.toDigits radix n) = some n := by
  simpa using parseUnsigned_zeros_toDigits 0 hone hradix hmax

/-- A word without the separator is what stands before it. -/
theorem splitOnce_append {separator : Char} {before : List Char} (h : separator ∉ before)
    (after : List Char) : splitOnce separator (before ++ separator :: after) =
      some (before, after) := by
  induction before with
  | nil => simp [splitOnce]
  | cons c before ih =>
      have hc : c ≠ separator := by
        rintro rfl
        exact h List.mem_cons_self
      simp [splitOnce, hc, ih fun hmem => h (List.mem_cons_of_mem c hmem)]

/-! ## What is read back -/

theorem le_ofDigitChars {radix : Nat} (hradix : 0 < radix) (s : List Char) (value : Nat) :
    value ≤ Nat.ofDigitChars radix s value := by
  induction s generalizing value with
  | nil => simp
  | cons c s ih =>
      rw [Nat.ofDigitChars_cons]
      have hmul : value ≤ radix * value := Nat.le_mul_of_pos_left value hradix
      have hle := ih (radix * value + (c.toNat - '0'.toNat))
      omega

/-- What is read from digits is their value, and no step of it was too large. -/
theorem parseDigits_eq_some_iff {radix max value n : Nat} {s : List Char} (hradix : 0 < radix)
    (hvalue : value ≤ max) :
    parseDigits radix max value s = some n ↔
      (∀ c ∈ s, (digit? radix c).isSome) ∧ Nat.ofDigitChars radix s value = n ∧ n ≤ max := by
  induction s generalizing value with
  | nil =>
      simp only [parseDigits, Option.some.injEq, Nat.ofDigitChars_nil, List.not_mem_nil,
        false_implies, implies_true, true_and]
      constructor
      · rintro rfl
        exact ⟨rfl, hvalue⟩
      · rintro ⟨rfl, -⟩
        rfl
  | cons c s ih =>
      cases hdigit : digit? radix c with
      | none => simp [parseDigits, hdigit]
      | some digit =>
          have hd : digit = c.toNat - '0'.toNat := by
            unfold digit? at hdigit
            split at hdigit
            · exact (Option.some.inj hdigit).symm
            · cases hdigit
          have hval : Nat.ofDigitChars radix (c :: s) value =
              Nat.ofDigitChars radix s (value * radix + digit) := by
            rw [Nat.ofDigitChars_cons, hd, Nat.mul_comm radix value]
          simp only [parseDigits, hdigit, hval]
          split
          case isTrue hfits =>
            rw [ih hfits]
            simp [hdigit]
          case isFalse hlarge =>
            -- what is over the limit stays over it
            have hle := le_ofDigitChars hradix s (value * radix + digit)
            constructor
            · intro hnone
              cases hnone
            · rintro ⟨-, rfl, hmax⟩
              omega

/-- The texts of an unsigned number: digits, perhaps behind a plus sign, whose value fits. -/
theorem parseUnsigned_eq_some_iff {radix max n : Nat} {s : List Char} (hradix : 0 < radix) :
    parseUnsigned radix max s = some n ↔
      ∃ digits, (s = digits ∨ s = '+' :: digits) ∧ digits ≠ [] ∧
        (∀ c ∈ digits, (digit? radix c).isSome) ∧
        Nat.ofDigitChars radix digits 0 = n ∧ n ≤ max := by
  -- a sign is no digit, so there is one at most
  have hplus : digit? radix '+' = none := by
    simp [digit?]
  have hread : ∀ digits, parseDigits radix max 0 digits = some n ↔ _ := fun digits =>
    parseDigits_eq_some_iff hradix (Nat.zero_le max)
  cases s with
  | nil => simp [parseUnsigned]
  | cons c rest =>
      simp only [parseUnsigned]
      split
      case isTrue hc =>
        obtain ⟨rfl, hrest⟩ := hc
        rw [hread]
        constructor
        · intro h
          exact ⟨rest, .inr rfl, hrest, h⟩
        · rintro ⟨digits, rfl | hdigits, hne, hall, hvalue⟩
          · have := hall '+' List.mem_cons_self
            simp [hplus] at this
          · cases hdigits
            exact ⟨hall, hvalue⟩
      case isFalse hc =>
        rw [hread]
        constructor
        · intro h
          exact ⟨c :: rest, .inl rfl, by simp, h⟩
        · rintro ⟨digits, rfl | hdigits, hne, hall, hvalue⟩
          · exact ⟨hall, hvalue⟩
          · cases hdigits
            exact absurd ⟨rfl, hne⟩ hc

/-- A text is split at its first separator. -/
theorem splitOnce_eq_some_iff {separator : Char} {s before after : List Char} :
    splitOnce separator s = some (before, after) ↔
      separator ∉ before ∧ s = before ++ separator :: after := by
  constructor
  · intro h
    induction s generalizing before with
    | nil => cases h
    | cons c rest ih =>
        unfold splitOnce at h
        split at h
        case isTrue hc =>
          cases h
          simp [hc]
        case isFalse hc =>
          cases hrest : splitOnce separator rest with
          | none => simp [hrest] at h
          | some parts =>
              obtain ⟨start, tail⟩ := parts
              simp only [hrest, Option.map_some, Option.some.injEq, Prod.mk.injEq] at h
              obtain ⟨rfl, rfl⟩ := h
              obtain ⟨hnot, rfl⟩ := ih hrest
              refine ⟨?_, rfl⟩
              simp [hnot, Ne.symm hc]
  · rintro ⟨hnot, rfl⟩
    exact splitOnce_append hnot after

/-! ## Lossy decoding -/

/-- What a first byte says, by its value. -/
theorem utf8Lead_ofNat {n : Nat} (h : n < 256) :
    utf8Lead (UInt8.ofNat n) =
      if n < 0x80 then some (.inl (Char.ofNat n))
      else if 0xC2 ≤ n ∧ n ≤ 0xDF then some (.inr { value := n % 32, missing := 0 })
      else if n = 0xE0 then some (.inr { value := 0, missing := 1, low := 0xA0 })
      else if n = 0xED then some (.inr { value := 13, missing := 1, high := 0x9F })
      else if 0xE1 ≤ n ∧ n ≤ 0xEF then some (.inr { value := n % 16, missing := 1 })
      else if n = 0xF0 then some (.inr { value := 0, missing := 2, low := 0x90 })
      else if 0xF1 ≤ n ∧ n ≤ 0xF3 then some (.inr { value := n % 8, missing := 2 })
      else if n = 0xF4 then some (.inr { value := 4, missing := 2, high := 0x8F })
      else none := by
  have hnat : (UInt8.ofNat n).toNat = n := by
    rw [UInt8.toNat_ofNat']
    omega
  simp only [utf8Lead, UInt8.lt_iff_toNat_lt, UInt8.le_iff_toNat_le, ← UInt8.toNat_inj, hnat,
    UInt8.reduceToNat]

/-- A byte that continues a sequence, within the range of the next one. -/
theorem continues_ofNat {n : Nat} {low high : UInt8} (hlow : low.toNat ≤ n + 128)
    (hhigh : n + 128 ≤ high.toNat) :
    (UInt8.ofNat (n + 128)).toNat = n + 128 ∧
      low ≤ UInt8.ofNat (n + 128) ∧ UInt8.ofNat (n + 128) ≤ high := by
  have hbyte := high.toNat_lt
  have hnat : (UInt8.ofNat (n + 128)).toNat = n + 128 := by
    rw [UInt8.toNat_ofNat']
    omega
  rw [UInt8.le_iff_toNat_le, UInt8.le_iff_toNat_le, hnat]
  exact ⟨rfl, hlow, hhigh⟩

theorem lossyFrom_last {value n : Nat} {low high : UInt8} (bytes : List UInt8)
    (hlow : low.toNat ≤ n + 128) (hhigh : n + 128 ≤ high.toNat) (hn : n < 64) :
    lossyFrom (some { value, missing := 0, low, high }) (UInt8.ofNat (n + 128) :: bytes) =
      Char.ofNat (value * 64 + n) :: lossyFrom none bytes := by
  have hbyte := continues_ofNat hlow hhigh
  have hvalue : (n + 128) % 64 = n := by omega
  rw [lossyFrom, if_pos hbyte.2, hbyte.1, hvalue]

theorem lossyFrom_next {value n missing : Nat} {low high : UInt8} (bytes : List UInt8)
    (hlow : low.toNat ≤ n + 128) (hhigh : n + 128 ≤ high.toNat) (hn : n < 64) :
    lossyFrom (some { value, missing := missing + 1, low, high })
        (UInt8.ofNat (n + 128) :: bytes) =
      lossyFrom (some { value := value * 64 + n, missing }) bytes := by
  have hbyte := continues_ofNat hlow hhigh
  have hvalue : (n + 128) % 64 = n := by omega
  rw [lossyFrom, if_pos hbyte.2, hbyte.1, hvalue]

/-- The first of three bytes: behind the least and behind `0xED` the next one has a range of its
own. -/
theorem utf8Lead_three {v : Nat} (hlow : 0x7FF < v) (hhigh : v ≤ 0xFFFF)
    (hvalid : v < 0xD800 ∨ 0xDFFF < v) :
    ∃ low high : UInt8, utf8Lead (UInt8.ofNat (v / 4096 % 16 + 224)) =
        some (.inr { value := v / 4096, missing := 1, low, high }) ∧
      low.toNat ≤ v / 64 % 64 + 128 ∧ v / 64 % 64 + 128 ≤ high.toNat := by
  have hmod : v / 4096 % 16 = v / 4096 := by omega
  rw [utf8Lead_ofNat (by omega), hmod, if_neg (by omega), if_neg (by omega)]
  by_cases hfirst : v / 4096 = 0
  · rw [if_pos (by omega), hfirst]
    exact ⟨0xA0, 0xBF, rfl, by simp; omega, by simp; omega⟩
  rw [if_neg (by omega)]
  by_cases hsurrogate : v / 4096 = 13
  · rw [if_pos (by omega), hsurrogate]
    exact ⟨0x80, 0x9F, rfl, by simp, by simp; omega⟩
  rw [if_neg (by omega), if_pos (by omega)]
  have hvalue : (v / 4096 + 224) % 16 = v / 4096 := by omega
  rw [hvalue]
  exact ⟨0x80, 0xBF, rfl, by simp, by simp; omega⟩

/-- The first of four bytes. -/
theorem utf8Lead_four {v : Nat} (hlow : 0xFFFF < v) (hhigh : v < 0x110000) :
    ∃ low high : UInt8, utf8Lead (UInt8.ofNat (v / 262144 % 8 + 240)) =
        some (.inr { value := v / 262144, missing := 2, low, high }) ∧
      low.toNat ≤ v / 4096 % 64 + 128 ∧ v / 4096 % 64 + 128 ≤ high.toNat := by
  have hmod : v / 262144 % 8 = v / 262144 := by omega
  rw [utf8Lead_ofNat (by omega), hmod, if_neg (by omega), if_neg (by omega), if_neg (by omega),
    if_neg (by omega), if_neg (by omega)]
  by_cases hfirst : v / 262144 = 0
  · rw [if_pos (by omega), hfirst]
    exact ⟨0x90, 0xBF, rfl, by simp; omega, by simp; omega⟩
  rw [if_neg (by omega)]
  by_cases hlast : v / 262144 = 4
  · rw [if_neg (by omega), if_pos (by omega), hlast]
    exact ⟨0x80, 0x8F, rfl, by simp, by simp; omega⟩
  have hvalue : (v / 262144 + 240) % 8 = v / 262144 := by omega
  rw [if_pos (by omega), hvalue]
  exact ⟨0x80, 0xBF, rfl, by simp, by simp; omega⟩

theorem lossyFrom_one {byte : UInt8} {c : Char} (bytes : List UInt8)
    (h : utf8Lead byte = some (.inl c)) :
    lossyFrom none (byte :: bytes) = c :: lossyFrom none bytes := by
  rw [lossyFrom, h]

theorem lossyFrom_lead {byte : UInt8} {pending : Utf8Pending} (bytes : List UInt8)
    (h : utf8Lead byte = some (.inr pending)) :
    lossyFrom none (byte :: bytes) = lossyFrom (some pending) bytes := by
  rw [lossyFrom, h]

/-- The bytes of a character stand for it, whatever follows. -/
theorem lossyFrom_utf8EncodeChar (c : Char) (bytes : List UInt8) :
    lossyFrom none (String.utf8EncodeChar c ++ bytes) = c :: lossyFrom none bytes := by
  -- a character is no surrogate, which the range of the second byte excludes
  have hvalid : c.val.toNat < 0xD800 ∨ 0xDFFF < c.val.toNat ∧ c.val.toNat < 0x110000 := c.valid
  have hchar : Char.ofNat c.val.toNat = c := Char.ofNat_toNat c
  unfold String.utf8EncodeChar
  generalize c.val.toNat = v at *
  dsimp only
  split
  · have hlead : utf8Lead (UInt8.ofNat v) = some (.inl (Char.ofNat v)) := by
      rw [utf8Lead_ofNat (by omega), if_pos (by omega)]
    rw [List.singleton_append, lossyFrom_one bytes hlead, hchar]
  split
  · have hlead : utf8Lead (UInt8.ofNat (v / 64 % 32 + 192)) =
        some (.inr { value := (v / 64 % 32 + 192) % 32, missing := 0 }) := by
      rw [utf8Lead_ofNat (by omega), if_neg (by omega), if_pos (by omega)]
    have hvalue : (v / 64 % 32 + 192) % 32 * 64 + v % 64 = v := by omega
    rw [List.cons_append, List.singleton_append, lossyFrom_lead _ hlead,
      lossyFrom_last bytes (by simp) (by simp; omega) (by omega), hvalue, hchar]
  split
  · rcases utf8Lead_three (v := v) (by omega) (by omega) (by omega) with
      ⟨low, high, hlead, hlow, hhigh⟩
    have hvalue : (v / 4096 * 64 + v / 64 % 64) * 64 + v % 64 = v := by omega
    rw [List.cons_append, List.cons_append, List.singleton_append, lossyFrom_lead _ hlead,
      lossyFrom_next _ hlow hhigh (by omega),
      lossyFrom_last bytes (by simp) (by simp; omega) (by omega), hvalue, hchar]
  · rcases utf8Lead_four (v := v) (by omega) (by omega) with ⟨low, high, hlead, hlow, hhigh⟩
    have hvalue : ((v / 262144 * 64 + v / 4096 % 64) * 64 + v / 64 % 64) * 64 + v % 64 = v := by
      omega
    rw [List.cons_append, List.cons_append, List.cons_append, List.singleton_append,
      lossyFrom_lead _ hlead, lossyFrom_next _ hlow hhigh (by omega),
      lossyFrom_next _ (by simp) (by simp; omega) (by omega),
      lossyFrom_last bytes (by simp) (by simp; omega) (by omega), hvalue, hchar]

/-- A text is read back from its bytes. -/
theorem fromUtf8Lossy_encodeUtf8 (s : List Char) : fromUtf8Lossy (encodeUtf8 s) = s := by
  induction s with
  | nil => rfl
  | cons c s ih =>
      rw [encodeUtf8, List.flatMap_cons, fromUtf8Lossy, lossyFrom_utf8EncodeChar]
      exact congrArg (c :: ·) ih

end Text
