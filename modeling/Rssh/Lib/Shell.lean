import Mathlib.Data.List.Basic

/-!
# POSIX shell token recognition

The quoting part of the shell command language, as the standard's token
recognition states it:

* a single quote makes everything literal up to the next single quote;
* inside double quotes only `$`, backquote, backslash and the closing quote are
  special, and a backslash escapes just these and the newline;
* outside quotes a backslash quotes the next character, a blank ends the word,
  the control characters are operators, and `#` at the start of a word begins a
  comment;
* adjacent pieces, quoted or not, join into one word.

Every character of a word keeps the quoting that protected it, because what the
shell does next (expansion of globs, tildes, assignments, reserved words) only
concerns `bare` characters. A text that asks for an expansion (`$`, backquote) or
ends inside a quote has no literal reading: `tokens` is `none` there.
-/

namespace Shell

/-- What protects a character of a word. -/
inductive Quoting where
  | bare
  | escaped
  | single
  | double
deriving DecidableEq, Repr

/-- A word: its characters, each with its quoting. -/
abbrev Word := List (Char × Quoting)

/-- The characters of a word after quote removal. -/
def Word.text (w : Word) : String := String.ofList (w.map Prod.fst)

/-- No character of the word is open to further expansion. -/
def Word.Protected (w : Word) : Prop := ∀ p ∈ w, p.2 ≠ .bare

inductive Token where
  | word (w : Word)
  | operator (c : Char)
deriving DecidableEq, Repr

/-- The lexer's quote state; the two escape modes follow a backslash. -/
inductive Mode where
  | unquoted
  | escape
  | single
  | double
  | doubleEscape
  | comment
deriving DecidableEq, Repr

def isBlank (c : Char) : Bool := c == ' ' || c == '\t'

/-- The characters that delimit words and form operators when unquoted. -/
def isOperator (c : Char) : Bool :=
  c == ';' || c == '&' || c == '|' || c == '<' || c == '>' || c == '(' || c == ')' || c == '\n'

/-- The characters that begin an expansion when not single-quoted. -/
def isExpansion (c : Char) : Bool := c == '$' || c == '`'

/-- What a backslash escapes inside double quotes. -/
def escapesInDouble (c : Char) : Bool := isExpansion c || c == '"' || c == '\\'

/-- The word in progress, as a token; `none` when no word has been started. -/
def pending : Option Word → List Token
  | none => []
  | some w => [.word w]

/-- Append a character to the word in progress, starting one if needed. -/
def extend (cur : Option Word) (c : Char) (q : Quoting) : Option Word :=
  some (cur.getD [] ++ [(c, q)])

/-- One character: the tokens it completes, the next quote state and the word in
progress; `none` when the text has no literal reading. -/
def step (m : Mode) (cur : Option Word) (c : Char) : Option (List Token × Mode × Option Word) :=
  match m with
  | .unquoted =>
      if c = '\'' then some ([], .single, some (cur.getD []))
      else if c = '"' then some ([], .double, some (cur.getD []))
      else if c = '\\' then some ([], .escape, cur)
      else if isBlank c then some (pending cur, .unquoted, none)
      else if isOperator c then some (pending cur ++ [.operator c], .unquoted, none)
      else if isExpansion c then none
      else if c = '#' ∧ cur = none then some ([], .comment, none)
      else some ([], .unquoted, extend cur c .bare)
  -- an escaped newline is a line continuation, not a character
  | .escape =>
      if c = '\n' then some ([], .unquoted, cur) else some ([], .unquoted, extend cur c .escaped)
  | .single =>
      if c = '\'' then some ([], .unquoted, cur) else some ([], .single, extend cur c .single)
  | .double =>
      if c = '"' then some ([], .unquoted, cur)
      else if c = '\\' then some ([], .doubleEscape, cur)
      else if isExpansion c then none
      else some ([], .double, extend cur c .double)
  -- inside double quotes a backslash before any other character is literal
  | .doubleEscape =>
      if escapesInDouble c then some ([], .double, extend cur c .escaped)
      else if c = '\n' then some ([], .double, cur)
      else some ([], .double, extend (extend cur '\\' .double) c .double)
  | .comment =>
      if c = '\n' then some ([.operator c], .unquoted, none) else some ([], .comment, none)

/-- The end of the text: an open quote or a dangling backslash has no reading. -/
def finish : Mode → Option Word → Option (List Token)
  | .unquoted, cur => some (pending cur)
  | .comment, cur => some (pending cur)
  | _, _ => none

/-- Token recognition from a quote state and a word in progress. -/
def lex : Mode → Option Word → List Char → Option (List Token)
  | m, cur, [] => finish m cur
  | m, cur, c :: cs =>
      match step m cur c with
      | none => none
      | some (out, m', cur') => (lex m' cur' cs).map (out ++ ·)

/-- The tokens of a command text. -/
def tokens (s : String) : Option (List Token) := lex .unquoted none s.toList

/-! ## Lexing a quoted piece -/

theorem lex_open_single (cur : Option Word) (cs : List Char) :
    lex .unquoted cur ('\'' :: cs) = lex .single (some (cur.getD [])) cs := by
  simp [lex, step]

/-- A single quote closes the quoted piece and not the word. -/
theorem lex_close_single (cur : Option Word) (cs : List Char) :
    lex .single cur ('\'' :: cs) = lex .unquoted cur cs := by
  simp [lex, step]

/-- Between single quotes every other character stands for itself. -/
theorem lex_single_char {c : Char} (hc : c ≠ '\'') (cur : Option Word) (cs : List Char) :
    lex .single cur (c :: cs) = lex .single (extend cur c .single) cs := by
  simp [lex, step, hc]

/-- A double-quoted lone single quote is that character. -/
theorem lex_double_quoted_quote (cur : Option Word) (cs : List Char) :
    lex .unquoted cur ('"' :: '\'' :: '"' :: cs) = lex .unquoted (extend cur '\'' .double) cs := by
  simp [lex, step, extend, isExpansion]

/-- An unquoted space ends the word in progress. -/
theorem lex_space (w : Word) (cs : List Char) :
    lex .unquoted (some w) (' ' :: cs) = (lex .unquoted none cs).map (.word w :: ·) := by
  simp [lex, step, isBlank, pending]

@[simp] theorem lex_unquoted_nil (cur : Option Word) :
    lex .unquoted cur [] = some (pending cur) := rfl

example : tokens "'a b' c\"'\"d" =
    some [.word [('a', .single), (' ', .single), ('b', .single)],
      .word [('c', .bare), ('\'', .double), ('d', .bare)]] := by decide

end Shell
