import Rssh.Lib.Shell
import Rssh.Types

/-!
# Remote command encoding

`encode_posix_remote_command` and the startup plan that carries its result to the
server. The server hands an exec request to the user's POSIX shell, so the only
meaning of the text is what `Shell.tokens` reads in it: `tokens_encode` is the
round trip for every argument vector, and `exec_request_denotes_argv` states it
for the request the startup plan builds.
-/

namespace Rssh

open Shell

/-- The body of the encoder's character loop. -/
def pushQuoted (quoted : String) (character : Char) : String :=
  if character = '\'' then quoted ++ "'\"'\"'" else quoted.push character

/-- One argument, single-quoted; an inner single quote leaves the quotes, is
double-quoted, and enters them again. -/
def quoteArgument (argument : String) : String :=
  (argument.toList.foldl pushQuoted "'").push '\''

/-- `encode_posix_remote_command`. -/
def encodePosixRemoteCommand (arguments : List String) : String :=
  " ".intercalate (arguments.map quoteArgument)

inductive RusshChannelStartupRequest where
  | requestPty (term : String) (columns rows pixelWidth pixelHeight : UInt32)
  | requestShell
  | exec (command : String)
deriving DecidableEq, Repr

structure RusshChannelStartupPlan where
  requests : List RusshChannelStartupRequest
deriving DecidableEq, Repr

/-- `RusshChannelStartupPlan::from_open_plan`. -/
def RusshChannelStartupPlan.fromOpenPlan (openPlan : SshChannelOpenPlan) :
    RusshChannelStartupPlan where
  requests :=
    (match openPlan.ptySize with
      | some size =>
          [.requestPty "xterm-256color" size.columns.toUInt32 size.rows.toUInt32 0 0]
      | none => []) ++
    match openPlan.startup with
    | .shell => [.requestShell]
    | .command command => [.exec (encodePosixRemoteCommand command)]
    | .noShell => []

/-- The command text of an exec request. -/
def RusshChannelStartupRequest.execCommand? : RusshChannelStartupRequest → Option String
  | .exec command => some command
  | _ => none

/-! ## Lexing the encoded text -/

/-- The word the shell reads for an argument: every character is quoted. -/
def quotedWord (argument : List Char) : Word :=
  argument.map fun c => (c, if c = '\'' then Quoting.double else Quoting.single)

/-- What one character of an argument contributes to the text. -/
def quotedCharacter (c : Char) : List Char :=
  if c = '\'' then ['\'', '"', '\'', '"', '\''] else [c]

/-- The loop pushes the quoted form of each character. -/
theorem toList_foldl_pushQuoted (cs : List Char) (quoted : String) :
    (cs.foldl pushQuoted quoted).toList = quoted.toList ++ cs.flatMap quotedCharacter := by
  induction cs generalizing quoted with
  | nil => simp
  | cons c cs ih =>
      rw [List.foldl_cons, ih, List.flatMap_cons]
      by_cases hc : c = '\''
      · simp [pushQuoted, quotedCharacter, hc]
      · simp [pushQuoted, quotedCharacter, hc]

/-- A quoted argument stands between single quotes. -/
theorem toList_quoteArgument (argument : String) :
    (quoteArgument argument).toList =
      '\'' :: (argument.toList.flatMap quotedCharacter ++ ['\'']) := by
  simp [quoteArgument, toList_foldl_pushQuoted]

/-- Inside the quotes: the lexer collects the argument's characters and comes
back out at the closing quote. The induction is on the argument; the word in
progress carries what has been read. -/
theorem lex_quoted_body (cs : List Char) (w : Word) (rest : List Char) :
    lex .single (some w) (cs.flatMap quotedCharacter ++ '\'' :: rest) =
      lex .unquoted (some (w ++ quotedWord cs)) rest := by
  induction cs generalizing w with
  | nil => simp [lex_close_single, quotedWord]
  | cons c cs ih =>
      by_cases hc : c = '\''
      · -- close, a double-quoted quote, and open again
        subst hc
        have hquote : ('\'' :: cs).flatMap quotedCharacter ++ '\'' :: rest =
            '\'' :: '"' :: '\'' :: '"' :: '\'' ::
              (cs.flatMap quotedCharacter ++ '\'' :: rest) := by
          simp [quotedCharacter]
        rw [hquote, lex_close_single, lex_double_quoted_quote, lex_open_single]
        simp only [extend, Option.getD_some]
        rw [ih]
        simp [quotedWord]
      · have hplain : (c :: cs).flatMap quotedCharacter ++ '\'' :: rest =
            c :: (cs.flatMap quotedCharacter ++ '\'' :: rest) := by
          simp [quotedCharacter, hc]
        rw [hplain, lex_single_char hc]
        simp only [extend, Option.getD_some]
        rw [ih]
        simp [quotedWord, hc]

/-- A quoted argument starts a word and completes it up to the closing quote. -/
theorem lex_quoteArgument (argument : String) (rest : List Char) :
    lex .unquoted none ((quoteArgument argument).toList ++ rest) =
      lex .unquoted (some (quotedWord argument.toList)) rest := by
  rw [toList_quoteArgument, List.cons_append, List.append_assoc, lex_open_single]
  simpa using lex_quoted_body argument.toList [] rest

/-- Arguments are separated by one blank. -/
theorem toList_encodePosixRemoteCommand_cons (argument next : String) (rest : List String) :
    (encodePosixRemoteCommand (argument :: next :: rest)).toList =
      (quoteArgument argument).toList ++
        ' ' :: (encodePosixRemoteCommand (next :: rest)).toList := by
  simp [encodePosixRemoteCommand, String.intercalate_cons_cons]

theorem encodePosixRemoteCommand_singleton (argument : String) :
    encodePosixRemoteCommand [argument] = quoteArgument argument := by
  simp [encodePosixRemoteCommand]

/-- The shell reads back exactly the argument vector. -/
theorem tokens_encode (arguments : List String) :
    tokens (encodePosixRemoteCommand arguments) =
      some (arguments.map fun argument => .word (quotedWord argument.toList)) := by
  unfold tokens
  induction arguments with
  | nil => rfl
  | cons argument arguments ih =>
      cases arguments with
      | nil =>
          have hlex := lex_quoteArgument argument []
          simpa [pending, encodePosixRemoteCommand_singleton] using hlex
      | cons next rest =>
          rw [toList_encodePosixRemoteCommand_cons, lex_quoteArgument, lex_space, ih]
          rfl

theorem quotedWord_text (argument : String) :
    Word.text (quotedWord argument.toList) = argument := by
  simp [Word.text, quotedWord, Function.comp_def]

/-- Every character of the word is quoted. -/
theorem quotedWord_protected (argument : List Char) : Word.Protected (quotedWord argument) := by
  intro p hp
  simp only [quotedWord, List.mem_map] at hp
  rcases hp with ⟨c, -, rfl⟩
  by_cases hc : c = '\'' <;> simp [hc]

/-- The startup plan of a command has one exec request, and its text denotes the
argument vector and nothing else: as many words as arguments, in order, with the
same characters, none of them unquoted. -/
theorem exec_request_denotes_argv (ptySize : Option TerminalSize) (argv : List String) :
    (RusshChannelStartupPlan.fromOpenPlan ⟨ptySize, .command argv⟩).requests.filterMap
        RusshChannelStartupRequest.execCommand? = [encodePosixRemoteCommand argv] ∧
      ∃ words : List Word,
        tokens (encodePosixRemoteCommand argv) = some (words.map Token.word) ∧
        words.map Word.text = argv ∧
        ∀ w ∈ words, Word.Protected w := by
  refine ⟨?_, argv.map (quotedWord ·.toList), ?_, ?_, ?_⟩
  · cases ptySize <;> rfl
  · rw [tokens_encode, List.map_map]
    rfl
  · rw [List.map_map]
    have hid : Word.text ∘ (quotedWord ·.toList) = (id : String → String) :=
      funext quotedWord_text
    rw [hid, List.map_id]
  · intro w hw
    rcases List.mem_map.mp hw with ⟨argument, -, rfl⟩
    exact quotedWord_protected argument.toList

example : encodePosixRemoteCommand ["echo", "it's", ""] = "'echo' 'it'\"'\"'s' ''" := by decide

end Rssh
