import Rssh.Command
import Rssh.Transfer.Sink

/-!
# The `scp` command of an exec request

The fixture splits the text of an exec request into words and reads the words of an `scp`
command. The words come from `parse_shell_words`, a reader of quotes and escapes of its own.

* `parse_shell_words_reads_encoded_command`: it reads back what the client's encoder writes.
* `ScpItem` are the flag letters and targets in the words of a command, and `Accepted` says which
  words make a request of what kind.
* `parse_scp_request_accepts_grammar`: `parse_scp_request` accepts these words and no others, so
  neither the order of the words nor the grouping of the letters matters.
-/

namespace Rssh.Scp

/-! ## Splitting into words -/

/-- What the loop of `parse_shell_words` carries along. -/
structure WordReader where
  words : List String := []
  word : String := ""
  quote : Option Char := none
  escaped : Bool := false
deriving DecidableEq, Repr

namespace WordReader

/-- The words with the one in progress, unless it is empty. -/
def finished (reader : WordReader) : List String :=
  if reader.word = "" then reader.words else reader.words ++ [reader.word]

/-- The body of the loop. -/
def read (reader : WordReader) (character : Char) : WordReader :=
  if reader.escaped then { reader with word := reader.word.push character, escaped := false }
  else if character = '\\' ∧ reader.quote ≠ some '\'' then { reader with escaped := true }
  else if character = '\'' ∨ character = '"' then
    if reader.quote = some character then { reader with quote := none }
    else if reader.quote = none then { reader with quote := some character }
    else { reader with word := reader.word.push character }
  else if isAsciiWhitespace character = true ∧ reader.quote = none then
    { reader with words := reader.finished, word := "" }
  else { reader with word := reader.word.push character }

end WordReader

/-- The characters that no command may have. -/
def isForbidden (character : Char) : Bool :=
  isControl character || character == '$' || character == '\x60' || character == '\x00'

/-- `parse_shell_words`. -/
def parseShellWords (command : String) : Except ScpProtocolError (List String) :=
  if command.toList.any isForbidden then .error {}
  else
    let reader := command.toList.foldl WordReader.read {}
    if reader.escaped = true ∨ reader.quote ≠ none then .error {} else .ok reader.finished

/-! ## Reading the words -/

inductive ScpDirection where
  | sink
  | source
deriving DecidableEq, Repr

/-- What the loop of `parse_scp_request` has found so far. -/
structure ScpArguments where
  direction : Option ScpDirection := none
  recursive : Bool := false
  preserveTimes : Bool := false
  targetIsDirectory : Bool := false
  target : Option String := none
deriving DecidableEq, Repr

/-- `set_direction`. -/
def setDirection (direction : Option ScpDirection) (value : ScpDirection) :
    Except ScpProtocolError (Option ScpDirection) :=
  if direction.isSome then .error {} else .ok (some value)

namespace ScpArguments

/-- One letter of a flag word. -/
def readFlag (found : ScpArguments) (flag : Char) : Except ScpProtocolError ScpArguments :=
  if flag = 't' then
    (setDirection found.direction .sink).map fun direction => { found with direction }
  else if flag = 'f' then
    (setDirection found.direction .source).map fun direction => { found with direction }
  else if flag = 'r' then .ok { found with recursive := true }
  else if flag = 'p' then .ok { found with preserveTimes := true }
  else if flag = 'd' then .ok { found with targetIsDirectory := true }
  else .error {}

/-- One word behind `scp`: flags, or the target. A dash alone is a target. -/
def readWord (found : ScpArguments) (word : String) : Except ScpProtocolError ScpArguments :=
  match word.toList with
  | '-' :: flag :: flags => (flag :: flags).foldlM readFlag found
  | _ => if found.target.isSome then .error {} else .ok { found with target := some word }

/-- The request, if a direction and a target have been found. -/
def request (found : ScpArguments) : Except ScpProtocolError (ScpDirection × ScpRequest) :=
  match found.direction, found.target with
  | some direction, some target =>
      .ok (direction,
        { recursive := found.recursive
          preserveTimes := found.preserveTimes
          targetIsDirectory := found.targetIsDirectory
          target := target.toList })
  | _, _ => .error {}

end ScpArguments

/-- `parse_scp_request`: `none` when the command is not `scp`. -/
def parseScpRequest (command : String) :
    Option (Except ScpProtocolError (ScpDirection × ScpRequest)) :=
  match parseShellWords command with
  | .error error =>
      -- what cannot be split is taken for an `scp` command by how it starts
      if "scp".toList <+: command.toList.dropWhile Text.isWhitespace then some (.error error)
      else none
  | .ok ("scp" :: words) =>
      some ((words.foldlM ScpArguments.readWord {}).bind ScpArguments.request)
  | .ok _ => none

example : parseScpRequest "scp -rt -- x" = some (.error {}) := by decide
example : (parseScpRequest "scp '-t' a\\ b").map (·.map fun r => r.2.target) =
    some (.ok "a b".toList) := by decide

/-! ## Reading back an encoded command -/

/-- Inside the encoder's quotes: the characters of the argument are added to the word, and the
reader is inside the quotes again. -/
theorem read_quoted_body (cs : List Char) (words : List String) (word : String) :
    (cs.flatMap quotedCharacter).foldl WordReader.read { words, word, quote := some '\'' } =
      { words, word := word ++ String.ofList cs, quote := some '\'' } := by
  induction cs generalizing word with
  | nil => simp
  | cons c cs ih =>
      have hpush : word.push c ++ String.ofList cs = word ++ String.ofList (c :: cs) := by
        rw [String.push_eq_append, String.append_assoc, ← String.ofList_cons]
      rw [List.flatMap_cons, List.foldl_append]
      have hchar : (quotedCharacter c).foldl WordReader.read { words, word, quote := some '\'' } =
          { words, word := word.push c, quote := some '\'' } := by
        by_cases hc : c = '\''
        · -- out of the quotes, a quote in double quotes, and in again
          subst hc
          simp [quotedCharacter, WordReader.read]
        · have hc' : ¬ '\'' = c := fun h => hc h.symm
          simp [quotedCharacter, hc, hc', WordReader.read]
      rw [hchar, ih, hpush]

theorem read_quoteArgument (argument : String) (words : List String) :
    (quoteArgument argument).toList.foldl WordReader.read { words } =
      { words, word := argument } := by
  rw [toList_quoteArgument, List.foldl_cons, List.foldl_append]
  have hopen : WordReader.read { words } '\'' = { words, word := "", quote := some '\'' } := by
    simp [WordReader.read]
  rw [hopen, read_quoted_body]
  simp [WordReader.read]

/-- The words read before, and those of the arguments. -/
theorem read_encode (arguments words : List String) (hne : ∀ argument ∈ arguments, argument ≠ "") :
    let reader := (encodePosixRemoteCommand arguments).toList.foldl WordReader.read { words }
    reader.escaped = false ∧ reader.quote = none ∧ reader.finished = words ++ arguments := by
  induction arguments generalizing words with
  -- the last argument ends with the text
  | nil => simp [encodePosixRemoteCommand, WordReader.finished]
  | cons argument arguments ih =>
      have hword : argument ≠ "" := hne argument List.mem_cons_self
      cases arguments with
      | nil =>
          rw [encodePosixRemoteCommand_singleton, read_quoteArgument]
          simp [WordReader.finished, hword]
      | cons next rest =>
          -- the blank behind an argument ends the word
          have hblank : WordReader.read { words, word := argument } ' ' =
              { words := words ++ [argument] } := by
            simp [WordReader.read, WordReader.finished, isAsciiWhitespace, hword]
          rw [toList_encodePosixRemoteCommand_cons, List.foldl_append, read_quoteArgument,
            List.foldl_cons, hblank]
          have hrest := ih (words ++ [argument]) fun other hother =>
            hne other (List.mem_cons_of_mem argument hother)
          rwa [List.append_assoc] at hrest

/-- Quoting adds only quotes. -/
theorem mem_quoteArgument {argument : String} {c : Char}
    (h : c ∈ (quoteArgument argument).toList) : c ∈ argument.toList ∨ c = '\'' ∨ c = '"' := by
  rw [toList_quoteArgument] at h
  simp only [List.mem_cons, List.mem_append, List.mem_flatMap, List.not_mem_nil, or_false] at h
  rcases h with rfl | ⟨d, hd, hc⟩ | rfl
  · exact .inr (.inl rfl)
  · unfold quotedCharacter at hc
    split at hc
    · simp only [List.mem_cons, List.not_mem_nil, or_false] at hc
      tauto
    · obtain rfl := List.mem_singleton.mp hc
      exact .inl hd
  · exact .inr (.inl rfl)

/-- The encoder adds quotes and blanks to the characters of the arguments. -/
theorem mem_encode {arguments : List String} {c : Char}
    (h : c ∈ (encodePosixRemoteCommand arguments).toList) :
    (∃ argument ∈ arguments, c ∈ argument.toList) ∨ c = '\'' ∨ c = '"' ∨ c = ' ' := by
  induction arguments with
  | nil => simp [encodePosixRemoteCommand] at h
  | cons argument arguments ih =>
      have hquoted : c ∈ (quoteArgument argument).toList →
          (∃ other ∈ argument :: arguments, c ∈ other.toList) ∨ c = '\'' ∨ c = '"' ∨ c = ' ' := by
        intro hmem
        -- a character of the argument, or one that quoting has added
        rcases mem_quoteArgument hmem with hmem | rfl | rfl
        · exact .inl ⟨argument, List.mem_cons_self, hmem⟩
        · simp
        · simp
      cases arguments with
      | nil =>
          rw [encodePosixRemoteCommand_singleton] at h
          exact hquoted h
      | cons next rest =>
          rw [toList_encodePosixRemoteCommand_cons, List.mem_append, List.mem_cons] at h
          rcases h with hmem | rfl | hmem
          · exact hquoted hmem
          · simp
          · rcases ih hmem with ⟨other, hother, hc⟩ | hadded
            · exact .inl ⟨other, List.mem_cons_of_mem argument hother, hc⟩
            · exact .inr hadded

/-- The fixture's reader gives back the arguments that the client has encoded. -/
theorem parse_shell_words_reads_encoded_command (arguments : List String)
    (hne : ∀ argument ∈ arguments, argument ≠ "")
    (hplain : ∀ argument ∈ arguments, ∀ c ∈ argument.toList,
      isControl c = false ∧ c ≠ '$' ∧ c ≠ '\x60') :
    parseShellWords (encodePosixRemoteCommand arguments) = .ok arguments := by
  have hallowed : (encodePosixRemoteCommand arguments).toList.any isForbidden = false := by
    rw [List.any_eq_false]
    intro c hc
    rcases mem_encode hc with ⟨argument, hargument, hmem⟩ | rfl | rfl | rfl
    · obtain ⟨hcontrol, hdollar, hbacktick⟩ := hplain argument hargument c hmem
      have hnul : c ≠ '\x00' := by
        rintro rfl
        cases hcontrol
      simp [isForbidden, hcontrol, hdollar, hbacktick, hnul]
    · decide
    · decide
    · decide
  obtain ⟨hescaped, hquote, hwords⟩ := read_encode arguments [] hne
  unfold parseShellWords
  simp [hallowed, hescaped, hquote, hwords]

/-- Quotes of both kinds, a backslash and a blank. -/
theorem parse_shell_words_reads_quotes :
    parseShellWords (encodePosixRemoteCommand ["it's", "a \"b\" \\"]) =
      .ok ["it's", "a \"b\" \\"] := by
  apply parse_shell_words_reads_encoded_command
  · simp
  · intro argument hargument c hc
    simp only [List.mem_cons, List.not_mem_nil, or_false] at hargument
    rcases hargument with rfl | rfl
    · simp only [String.reduceToList, List.mem_cons, List.not_mem_nil, or_false] at hc
      rcases hc with rfl | rfl | rfl | rfl <;> decide
    · simp only [String.reduceToList, List.mem_cons, List.not_mem_nil, or_false] at hc
      rcases hc with rfl | rfl | rfl | rfl | rfl | rfl | rfl <;> decide

/-! ## The grammar of the words -/

/-- What the words behind `scp` consist of. -/
inductive ScpItem where
  | flag (letter : Char)
  | target (word : String)
deriving DecidableEq, Repr

namespace ScpItem

def letter? : ScpItem → Option Char
  | flag letter => some letter
  | target _ => none

def target? : ScpItem → Option String
  | flag _ => none
  | target word => some word

end ScpItem

/-- A dash with something behind it is a word of flags; any other word is a target. -/
def itemsOf (word : String) : List ScpItem :=
  match word.toList with
  | '-' :: flag :: flags => (flag :: flags).map .flag
  | _ => [.target word]

/-- All flag letters in the words. -/
def letters (words : List String) : List Char := (words.flatMap itemsOf).filterMap ScpItem.letter?

/-- All targets among the words. -/
def targets (words : List String) : List String :=
  (words.flatMap itemsOf).filterMap ScpItem.target?

def ScpDirection.letter : ScpDirection → Char
  | sink => 't'
  | source => 'f'

def isDirection (letter : Char) : Bool := letter == 't' || letter == 'f'

/-- The words ask for this request: known letters, one target, and one direction. -/
structure Accepted (words : List String) (direction : ScpDirection) (request : ScpRequest) :
    Prop where
  known : ∀ letter ∈ letters words, letter ∈ ['t', 'f', 'r', 'p', 'd']
  target : targets words = [String.ofList request.target]
  direction : (letters words).filter isDirection = [direction.letter]
  recursive : request.recursive = true ↔ 'r' ∈ letters words
  preserveTimes : request.preserveTimes = true ↔ 'p' ∈ letters words
  targetIsDirectory : request.targetIsDirectory = true ↔ 'd' ∈ letters words

/-- Other words with the same targets and the same letters, in whatever order and groups. -/
structure Regrouped (words words' : List String) : Prop where
  letters : (letters words).Perm (letters words')
  targets : (targets words).Perm (targets words')

theorem Regrouped.of_perm {words words' : List String} (h : words.Perm words') :
    Regrouped words words' where
  letters := (h.flatMap_right itemsOf).filterMap _
  targets := (h.flatMap_right itemsOf).filterMap _

/-- Acceptance does not see the order and the groups. -/
theorem Accepted.of_regrouped {words words' : List String} {direction : ScpDirection}
    {request : ScpRequest} (h : Accepted words direction request)
    (hregrouped : Regrouped words words') : Accepted words' direction request where
  known letter hmem := h.known letter (hregrouped.letters.mem_iff.mpr hmem)
  target := by
    have hperm := hregrouped.targets
    rw [h.target] at hperm
    exact List.singleton_perm.mp hperm |>.symm
  direction := by
    have hperm := hregrouped.letters.filter isDirection
    rw [h.direction] at hperm
    exact List.singleton_perm.mp hperm |>.symm
  recursive := h.recursive.trans hregrouped.letters.mem_iff
  preserveTimes := h.preserveTimes.trans hregrouped.letters.mem_iff
  targetIsDirectory := h.targetIsDirectory.trans hregrouped.letters.mem_iff

/-! ## The loop over the words -/

namespace ScpArguments

/-- One letter or one target, whatever word it is from. -/
def readItem (found : ScpArguments) : ScpItem → Except ScpProtocolError ScpArguments
  | .flag letter => found.readFlag letter
  | .target word =>
      if found.target.isSome then .error {} else .ok { found with target := some word }

theorem readWord_eq (found : ScpArguments) (word : String) :
    found.readWord word = (itemsOf word).foldlM readItem found := by
  unfold readWord itemsOf
  split
  · rw [List.foldlM_map]
    rfl
  · simp [readItem]

/-- The two loops are one loop over the items. -/
theorem foldlM_readWord (words : List String) (found : ScpArguments) :
    words.foldlM readWord found = (words.flatMap itemsOf).foldlM readItem found := by
  induction words generalizing found with
  | nil => rfl
  | cons word words ih =>
      rw [List.foldlM_cons, List.flatMap_cons, List.foldlM_append, readWord_eq]
      exact bind_congr ih

/-- These letters and these targets have been read, and this is what was found in them. -/
structure Reads (letters : List Char) (targets : List String) (found : ScpArguments) : Prop where
  known : ∀ letter ∈ letters, letter ∈ ['t', 'f', 'r', 'p', 'd']
  direction : letters.filter isDirection = found.direction.toList.map ScpDirection.letter
  target : targets = found.target.toList
  recursive : found.recursive = true ↔ 'r' ∈ letters
  preserveTimes : found.preserveTimes = true ↔ 'p' ∈ letters
  targetIsDirectory : found.targetIsDirectory = true ↔ 'd' ∈ letters

theorem reads_nil : Reads [] [] {} := by
  constructor <;> simp

variable {letters letters' : List Char} {targets targets' : List String}
  {found found' : ScpArguments}

/-- The letters and targets determine what is found in them. -/
theorem Reads.unique (h : Reads letters targets found) (h' : Reads letters targets found') :
    found = found' := by
  have hletter : Function.Injective ScpDirection.letter := by
    rintro (_ | _) (_ | _) <;> simp [ScpDirection.letter]
  have hdirections := hletter.list_map (h.direction.symm.trans h'.direction)
  have hdirection : found.direction = found'.direction := by
    simpa using congrArg List.head? hdirections
  have htarget : found.target = found'.target := by
    simpa using congrArg List.head? (h.target.symm.trans h'.target)
  have hrecursive := Bool.eq_iff_iff.mpr (h.recursive.trans h'.recursive.symm)
  have htimes := Bool.eq_iff_iff.mpr (h.preserveTimes.trans h'.preserveTimes.symm)
  have hdirectory := Bool.eq_iff_iff.mpr (h.targetIsDirectory.trans h'.targetIsDirectory.symm)
  cases found
  cases found'
  simp_all

/-- The direction is set once. -/
theorem setDirection_eq_ok {value : ScpDirection}
    (h : ((setDirection found.direction value).map fun direction => { found with direction }) =
      .ok found') :
    found.direction = none ∧ found' = { found with direction := some value } := by
  cases hdirection : found.direction with
  | none =>
      rw [hdirection] at h
      cases h
      exact ⟨rfl, rfl⟩
  | some direction =>
      rw [hdirection] at h
      cases h

/-- One letter more. -/
theorem Reads.readFlag (h : Reads letters targets found) {letter : Char}
    (hflag : found.readFlag letter = .ok found') : Reads (letters ++ [letter]) targets found' := by
  obtain ⟨hknown, hdirection, htarget, hrecursive, htimes, hdirectory⟩ := h
  unfold ScpArguments.readFlag at hflag
  split_ifs at hflag with ht hf hr hp hd
  · obtain ⟨hnone, rfl⟩ := setDirection_eq_ok hflag
    subst ht
    constructor <;> simp_all [isDirection, ScpDirection.letter, or_imp, forall_and]
  · obtain ⟨hnone, rfl⟩ := setDirection_eq_ok hflag
    subst hf
    constructor <;> simp_all [isDirection, ScpDirection.letter, or_imp, forall_and]
  · cases hflag
    subst hr
    constructor <;> simp_all [isDirection, or_imp]
  · cases hflag
    subst hp
    constructor <;> simp_all [isDirection, or_imp]
  · cases hflag
    subst hd
    constructor <;> simp_all [isDirection, or_imp]

/-- A letter that is refused is refused whatever comes behind it. -/
theorem Reads.not_of_readFlag_error (h : Reads letters targets found) {letter : Char}
    {error : ScpProtocolError} (hflag : found.readFlag letter = .error error)
    (more : List Char) : ¬ Reads (letters ++ letter :: more) targets' found' := by
  intro h'
  -- a second direction would be one too many
  have hsecond : isDirection letter = true → found.direction = none := by
    intro hletter
    have hcount := congrArg List.length h'.direction
    have hle : found'.direction.toList.length ≤ 1 := Option.length_toList_le
    rw [List.filter_append, List.filter_cons_of_pos hletter, h.direction] at hcount
    simp only [List.length_append, List.length_map, List.length_cons] at hcount
    have hzero : found.direction.toList.length = 0 := by omega
    simpa using hzero
  have hletter := h'.known letter (by simp)
  simp only [List.mem_cons, List.not_mem_nil, or_false] at hletter
  rcases hletter with rfl | rfl | rfl | rfl | rfl
  · have hnone := hsecond rfl
    simp [ScpArguments.readFlag, setDirection, hnone, Except.map] at hflag
  · have hnone := hsecond rfl
    simp [ScpArguments.readFlag, setDirection, hnone, Except.map] at hflag
  all_goals simp [ScpArguments.readFlag] at hflag

theorem Reads.readTarget (h : Reads letters targets found) {word : String}
    (htarget : found.readItem (.target word) = .ok found') :
    Reads letters (targets ++ [word]) found' := by
  obtain ⟨hknown, hdirection, hnone, hrecursive, htimes, hdirectory⟩ := h
  simp only [readItem] at htarget
  split at htarget
  · cases htarget
  · cases htarget
    constructor <;> simp_all

/-- A second target is one too many. -/
theorem Reads.not_of_readTarget_error (h : Reads letters targets found) {word : String}
    {error : ScpProtocolError} (htarget : found.readItem (.target word) = .error error)
    (more : List String) : ¬ Reads letters' (targets ++ word :: more) found' := by
  intro h'
  have hcount := congrArg List.length h'.target
  have hle : found'.target.toList.length ≤ 1 := Option.length_toList_le
  rw [h.target] at hcount
  simp only [List.length_append, List.length_cons] at hcount
  have hzero : found.target.toList.length = 0 := by omega
  have hnone : found.target = none := by simpa using hzero
  simp [readItem, hnone] at htarget

/-- The loop reads the items, or it fails when they cannot be read. -/
theorem Reads.foldlM_ok_iff (h : Reads letters targets found) (items : List ScpItem) :
    items.foldlM readItem found = .ok found' ↔
      Reads (letters ++ items.filterMap ScpItem.letter?)
        (targets ++ items.filterMap ScpItem.target?) found' := by
  induction items generalizing letters targets found with
  | nil =>
      simp only [List.filterMap_nil, List.append_nil]
      constructor
      · intro hok
        cases hok
        exact h
      · intro h'
        rw [h.unique h']
        rfl
  | cons item items ih =>
      rw [List.foldlM_cons]
      cases hitem : found.readItem item with
      | error error =>
          -- a letter that is not known, a second direction or a second target
          constructor
          · intro hok
            cases hok
          · intro h'
            cases item with
            | flag letter => exact absurd h' (h.not_of_readFlag_error hitem _)
            | target word => exact absurd h' (h.not_of_readTarget_error hitem _)
      | ok next =>
          cases item with
          | flag letter =>
              have hnext := ih (h.readFlag hitem)
              rwa [List.append_assoc] at hnext
          | target word =>
              have hnext := ih (h.readTarget hitem)
              rwa [List.append_assoc targets] at hnext

end ScpArguments

/-- The words behind `scp` make a request when they ask for it. -/
theorem readWords_ok_iff {words : List String} {direction : ScpDirection} {request : ScpRequest} :
    (words.foldlM ScpArguments.readWord {}).bind ScpArguments.request =
        .ok (direction, request) ↔ Accepted words direction request := by
  have hloop (found : ScpArguments) :
      words.foldlM ScpArguments.readWord {} = .ok found ↔
        ScpArguments.Reads (letters words) (targets words) found := by
    rw [ScpArguments.foldlM_readWord]
    exact ScpArguments.reads_nil.foldlM_ok_iff (words.flatMap itemsOf)
  constructor
  · intro h
    cases hfound : words.foldlM ScpArguments.readWord {} with
    | error error =>
        rw [hfound] at h
        cases h
    | ok found =>
        -- the words have been read; a target or a direction can still be missing
        rw [hfound] at h
        obtain ⟨hknown, hdirection, htarget, hrecursive, htimes, hdirectory⟩ :=
          (hloop found).mp hfound
        change found.request = _ at h
        unfold ScpArguments.request at h
        split at h
        case h_1 way word hway hword =>
          cases h
          rw [hway] at hdirection
          rw [hword] at htarget
          exact ⟨hknown, by simpa using htarget, hdirection, hrecursive, htimes, hdirectory⟩
        case h_2 => cases h
  · intro h
    have hfound := (hloop
      { direction := some direction
        recursive := request.recursive
        preserveTimes := request.preserveTimes
        targetIsDirectory := request.targetIsDirectory
        target := some (String.ofList request.target) }).mpr
      ⟨h.known, h.direction, h.target, h.recursive, h.preserveTimes, h.targetIsDirectory⟩
    rw [hfound]
    simp [Except.bind, ScpArguments.request]

/-- The result does not see the order of the words and the groups of the letters. -/
theorem readWords_regrouped {words words' : List String} (h : Regrouped words words') :
    (words.foldlM ScpArguments.readWord {}).bind ScpArguments.request =
      (words'.foldlM ScpArguments.readWord {}).bind ScpArguments.request := by
  have hback : Regrouped words' words := ⟨h.letters.symm, h.targets.symm⟩
  cases hread : (words.foldlM ScpArguments.readWord {}).bind ScpArguments.request with
  | ok found =>
      have haccepted := readWords_ok_iff.mp hread
      exact (readWords_ok_iff.mpr (haccepted.of_regrouped h)).symm
  | error error =>
      cases hread' : (words'.foldlM ScpArguments.readWord {}).bind ScpArguments.request with
      | error error' => rfl
      | ok found =>
          have haccepted := readWords_ok_iff.mp hread'
          rw [readWords_ok_iff.mpr (haccepted.of_regrouped hback)] at hread
          cases hread

/-- `parse_scp_request` on a command that can be split: `none` for another command than `scp`,
and else a request when the words ask for it. So words with the same letters and targets have
the same result. -/
theorem parse_scp_request_accepts_grammar (command : String) (words : List String)
    (hwords : parseShellWords command = .ok words) :
    (parseScpRequest command = none ↔ words.head? ≠ some "scp") ∧
    (∀ rest, words = "scp" :: rest → ∀ direction request,
      parseScpRequest command = some (.ok (direction, request)) ↔
        Accepted rest direction request) ∧
    ∀ rest, words = "scp" :: rest → ∀ command' rest',
      parseShellWords command' = .ok ("scp" :: rest') →
      rest.Perm rest' ∨ Regrouped rest rest' →
      parseScpRequest command' = parseScpRequest command := by
  have hscp : ∀ rest, parseShellWords command = .ok ("scp" :: rest) → parseScpRequest command =
      some ((rest.foldlM ScpArguments.readWord {}).bind ScpArguments.request) := by
    intro rest hrest
    simp only [parseScpRequest, hrest]
  refine ⟨?_, ?_, ?_⟩
  · constructor
    · rintro hnone hhead
      obtain ⟨rest, rfl⟩ := List.head?_eq_some_iff.mp hhead
      rw [hscp rest hwords] at hnone
      cases hnone
    · intro hhead
      unfold parseScpRequest
      rw [hwords]
      split
      case h_1 herror => cases herror
      case h_2 hsplit =>
        cases hsplit
        exact absurd rfl hhead
      case h_3 => rfl
  · rintro rest rfl direction request
    rw [hscp rest hwords, Option.some.injEq]
    exact readWords_ok_iff
  · rintro rest rfl command' rest' hwords' hsame
    -- the same words in another order, or the same letters in other groups
    have hregrouped : Regrouped rest rest' := hsame.elim Regrouped.of_perm id
    rw [hscp rest hwords]
    simp only [parseScpRequest, hwords', Option.some.injEq]
    exact (readWords_regrouped hregrouped).symm

/-- Three flags in one word, and the same flags in words of their own. -/
theorem parse_scp_request_regroups_flags :
    parseScpRequest "scp -d -r -t x" = parseScpRequest "scp x -rtd" := by
  have hgrouped : parseShellWords "scp x -rtd" = .ok ["scp", "x", "-rtd"] := by decide
  have hsingle : parseShellWords "scp -d -r -t x" = .ok ["scp", "-d", "-r", "-t", "x"] := by
    decide
  refine (parse_scp_request_accepts_grammar _ _ hgrouped).2.2 _ rfl _ _ hsingle (.inr ?_)
  exact ⟨by decide, by decide⟩

/-- A dash with known letters behind it. -/
def isKnownFlags (word : String) : Bool :=
  match word.toList with
  | '-' :: flag :: flags => (flag :: flags).all (['t', 'f', 'r', 'p', 'd'].contains ·)
  | _ => false

/-- A word with an unknown letter is not taken for a target: not every word that is no word of
known flags is one. -/
theorem unknown_flags_are_no_target :
    ¬ ∀ command rest, parseShellWords command = .ok ("scp" :: rest) →
      ((∃ direction request, parseScpRequest command = some (.ok (direction, request))) ↔
        (rest.filter (!isKnownFlags ·)).length = 1 ∧
          ((rest.filter isKnownFlags).flatMap (·.toList.tail)).countP isDirection = 1) := by
  intro h
  have hwords : parseShellWords "scp -t -x" = .ok ["scp", "-t", "-x"] := by decide
  have hrefused : parseScpRequest "scp -t -x" = some (.error {}) := by decide
  obtain ⟨direction, request, hok⟩ := (h _ _ hwords).mpr (by decide)
  rw [hrefused] at hok
  cases hok

end Rssh.Scp
