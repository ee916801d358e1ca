import Rssh.Cli

/-!
# The command line of `rssh`

The grammar of the command line, apart from the loop that reads it: settings in any order, a
destination, and the words of the remote command.

* `Setting`, `Destination` and `CommandLine` are the grammar. A value of these types is well
  formed, so a list of words is in the grammar when it is the `words` of a `CommandLine`.
* `parseLoop_setting` and `parseLoop_destination` say what the loop does with a part of the line,
  and `parseLoop_cases` that a loop that succeeds starts with one of them.
* `parse_accepts_grammar`: `parse` returns options for the words of a command line and for no
  other words, and the options are those of the line.
-/

namespace Rssh

namespace Cli

/-! ## The grammar -/

/-- A decimal text of a nonzero `u16`, as `u16::from_str` reads it. -/
structure PortWord where
  text : String
  port : UInt16
  spells : ∃ digits, (text.toList = digits ∨ text.toList = '+' :: digits) ∧ digits ≠ [] ∧
    (∀ c ∈ digits, c.isDigit = true) ∧ Nat.ofDigitChars 10 digits 0 = port.toNat
  nonzero : port ≠ 0

/-- One setting, with its value. -/
inductive Setting where
  | port (word : PortWord)
  | knownHosts (file : String)
  | identity (key : String) (hne : key ≠ "")
  | password

namespace Setting

def words : Setting → List String
  | port word => ["-p", word.text]
  | knownHosts file => ["--known-hosts", file]
  | identity key _ => ["-i", key]
  | password => ["--password"]

def port? : Setting → Option UInt16
  | port word => some word.port
  | _ => none

def knownHosts? : Setting → Option String
  | knownHosts file => some file
  | _ => none

def auth? : Setting → Option SshAuthMethod
  | identity key _ => some (.privateKey key none)
  | password => some .passwordPrompt
  | _ => none

end Setting

/-- A destination word: the user before its first `@`, and the host behind it. -/
structure Destination where
  user : List Char
  host : List Char
  user_ne : user ≠ []
  host_ne : host ≠ []
  first : '@' ∉ user
  not_option : user.head? ≠ some '-'

def Destination.word (destination : Destination) : String :=
  String.ofList (destination.user ++ '@' :: destination.host)

/-- A command line of the grammar. -/
structure CommandLine where
  settings : List Setting
  one_auth : (settings.filterMap Setting.auth?).length ≤ 1
  destination : Destination
  command : List String

namespace CommandLine

def words (line : CommandLine) : List String :=
  line.settings.flatMap Setting.words ++ line.destination.word :: line.command

/-- What the line asks for, if there is a known-hosts path. -/
def options (home : Option String) (line : CommandLine) : Option Options :=
  ((line.settings.filterMap Setting.knownHosts?).getLast?.or
      (home.map (joinPath · ".ssh/known_hosts"))).map fun knownHosts =>
    { host := String.ofList line.destination.host
      user := String.ofList line.destination.user
      port := (line.settings.filterMap Setting.port?).getLast?.getD 22
      knownHosts
      auth := (line.settings.filterMap Setting.auth?).getLast?.getD .agent
      command := line.command }

end CommandLine

/-! ## The loop -/

theorem digit?_ten_isSome (c : Char) : (Text.digit? 10 c).isSome = c.isDigit := by
  have hdigit : c.isDigit = true ↔ '0'.toNat ≤ c.toNat ∧ c.toNat - '0'.toNat < 10 := by
    simp only [Char.isDigit, Bool.and_eq_true, decide_eq_true_eq, Char.toNat,
      UInt32.le_iff_toNat_le]
    constructor <;> intro h <;> (simp at h ⊢; omega)
  rw [Bool.eq_iff_iff, hdigit]
  unfold Text.digit?
  split <;> simp_all

/-- The port is read from the texts of a `PortWord`, and from no others. -/
theorem parsePort_ok_iff {text : String} {port : UInt16} :
    parsePort text = .ok port ↔ ∃ word : PortWord, word.text = text ∧ word.port = port := by
  have hread : ∀ n, Text.parseUnsigned 10 65535 text.toList = some n ↔ _ := fun n =>
    Text.parseUnsigned_eq_some_iff (by decide)
  simp only [digit?_ten_isSome] at hread
  unfold parsePort
  constructor
  · intro h
    split at h
    · cases h
    case h_2 n hn =>
      split at h
      · cases h
      case isFalse hzero =>
        obtain ⟨digits, htext, hne, hdigits, hvalue, hmax⟩ := (hread n).mp hn
        have hto : (UInt16.ofNat n).toNat = n := UInt16.toNat_ofNat_of_lt' (by
          simp only [UInt16.size]
          omega)
        cases h
        refine ⟨⟨text, UInt16.ofNat n, ⟨digits, htext, hne, hdigits, hvalue.trans hto.symm⟩, ?_⟩,
          rfl, rfl⟩
        intro hnone
        rw [hnone] at hto
        exact hzero hto.symm
  · rintro ⟨word, rfl, rfl⟩
    obtain ⟨digits, htext, hne, hdigits, hvalue⟩ := word.spells
    have hlt : word.port.toNat < 65536 := word.port.toNat_lt
    have hsome := (hread word.port.toNat).mpr ⟨digits, htext, hne, hdigits, hvalue, by omega⟩
    -- port 0 is refused
    have hzero : word.port.toNat ≠ 0 := by
      intro hport
      exact word.nonzero (UInt16.toNat_inj.mp hport)
    rw [hsome]
    simp [hzero]

/-- What is gathered with one more way to authenticate, of which there can be one. -/
def Settings.select (s : Settings) (auth : SshAuthMethod) : Option Settings :=
  if s.authSelected then none else some { s with auth, authSelected := true }

/-- What the loop has gathered when it has read one more setting. -/
def Settings.take (s : Settings) : Setting → Option Settings
  | .port word => some { s with port := word.port }
  | .knownHosts file => some { s with knownHosts := some file }
  | .identity key _ => s.select (.privateKey key none)
  | .password => s.select .passwordPrompt

/-- The options at the destination. -/
def Settings.options (s : Settings) (destination : Destination) (command : List String) :
    Option Options :=
  s.knownHosts.map fun knownHosts =>
    { host := String.ofList destination.host, user := String.ofList destination.user,
      port := s.port, knownHosts, auth := s.auth, command }

theorem Settings.select_eq_some_iff {s s' : Settings} {auth : SshAuthMethod} :
    s.select auth = some s' ↔
      s.authSelected = false ∧ s' = { s with auth, authSelected := true } := by
  unfold Settings.select
  split
  case isTrue hselected => simp [hselected]
  case isFalse hselected => simp [hselected, eq_comm]

/-- The words of a setting are read as that setting. -/
theorem parseLoop_setting {s s' : Settings} {setting : Setting} (htake : s.take setting = some s')
    (rest : List String) : parseLoop s (setting.words ++ rest) = parseLoop s' rest := by
  cases setting with
  | port word =>
      cases htake
      have hport : parsePort word.text = .ok word.port := parsePort_ok_iff.mpr ⟨word, rfl, rfl⟩
      simp [Setting.words, parseLoop, hport]
  | knownHosts file =>
      cases htake
      simp [Setting.words, parseLoop]
  | identity key hne =>
      obtain ⟨hselected, rfl⟩ := Settings.select_eq_some_iff.mp htake
      simp [Setting.words, parseLoop, hselected, SshAuthMethod.ofPrivateKey, hne]
  | password =>
      obtain ⟨hselected, rfl⟩ := Settings.select_eq_some_iff.mp htake
      change parseLoop s ("--password" :: rest) = _
      rw [parseLoop.eq_def]
      simp [hselected]

/-- The destination is read as the destination, whatever stands behind it. -/
theorem parseDestination_ok_iff {s : Settings} {argument : String} {command : List String}
    {options : Options} (hoption : argument.toList.head? ≠ some '-') :
    parseDestination s argument command = .ok options ↔
      ∃ destination : Destination, destination.word = argument ∧
        s.options destination command = some options := by
  unfold parseDestination Settings.options
  constructor
  · intro h
    split at h
    · cases h
    case h_2 user host hsplit =>
      obtain ⟨hfirst, hargument⟩ := Text.splitOnce_eq_some_iff.mp hsplit
      split at h
      · cases h
      case isFalse hne =>
        rw [not_or] at hne
        have hword : String.ofList (user ++ '@' :: host) = argument := by
          rw [← hargument, String.ofList_toList]
        -- a word that begins with a dash is an option
        have hhead : user.head? ≠ some '-' := by
          intro hdash
          rw [hargument, List.head?_append, hdash] at hoption
          exact hoption rfl
        refine ⟨⟨user, host, hne.1, hne.2, hfirst, hhead⟩, hword, ?_⟩
        cases hknown : s.knownHosts with
        | none => simp [hknown] at h
        | some knownHosts =>
            simp only [hknown, Except.ok.injEq] at h
            exact congrArg some h
  · rintro ⟨destination, rfl, hoptions⟩
    have hsplit := Text.splitOnce_append destination.first destination.host
    cases hknown : s.knownHosts with
    | none => simp [hknown] at hoptions
    | some knownHosts =>
        simp only [hknown, Option.map_some, Option.some.injEq] at hoptions
        simp [Destination.word, hsplit, destination.user_ne, destination.host_ne, hoptions]

/-- A loop that succeeds has read a setting, or it has read the destination. -/
theorem parseLoop_cases {s : Settings} {args : List String} {options : Options}
    (h : parseLoop s args = .ok options) :
    (∃ setting s' rest, args = setting.words ++ rest ∧ s.take setting = some s' ∧
      parseLoop s' rest = .ok options) ∨
    ∃ (destination : Destination) (command : List String),
      args = destination.word :: command ∧ s.options destination command = some options := by
  cases args with
  | nil => cases h
  | cons argument rest =>
      rw [parseLoop.eq_def] at h
      simp only at h
      split_ifs at h with hport hknown hauth hselected hkey hoption
      · cases rest with
        | nil => cases h
        | cons value rest =>
            simp only at h
            cases hparse : parsePort value with
            | error error => simp [hparse] at h
            | ok port =>
                simp only [hparse] at h
                obtain ⟨word, rfl, rfl⟩ := parsePort_ok_iff.mp hparse
                exact .inl ⟨.port word, _, rest, by simp [Setting.words, hport], rfl, h⟩
      · cases rest with
        | nil => cases h
        | cons value rest =>
            exact .inl ⟨.knownHosts value, _, rest, by simp [Setting.words, hknown], rfl, h⟩
      · cases rest with
        | nil => cases h
        | cons value rest =>
            simp only [SshAuthMethod.ofPrivateKey] at h
            split_ifs at h with hempty
            refine .inl ⟨.identity value hempty, _, rest, by simp [Setting.words, hkey], ?_, h⟩
            exact Settings.select_eq_some_iff.mpr ⟨by simpa using hselected, rfl⟩
      · -- the flag is one of the two
        have hpassword := hauth.resolve_left hkey
        refine .inl ⟨.password, _, rest, by simp [Setting.words, hpassword], ?_, h⟩
        exact Settings.select_eq_some_iff.mpr ⟨by simpa using hselected, rfl⟩
      · obtain ⟨destination, hword, hoptions⟩ := (parseDestination_ok_iff hoption).mp h
        exact .inr ⟨destination, rest, by rw [hword], hoptions⟩

theorem Destination.head_word (destination : Destination) :
    destination.word.toList.head? ≠ some '-' := by
  have hhead : destination.word.toList.head? = destination.user.head? := by
    rw [Destination.word, String.toList_ofList, List.head?_append_of_ne_nil _ destination.user_ne]
  rw [hhead]
  exact destination.not_option

/-- The loop ends at a destination. -/
theorem parseLoop_destination {s : Settings} (destination : Destination) (command : List String)
    {options : Options} (hoptions : s.options destination command = some options) :
    parseLoop s (destination.word :: command) = .ok options := by
  have hhead := destination.head_word
  -- the words of the settings start with a dash
  have hword : ∀ word : String, word.toList.head? = some '-' → destination.word ≠ word := by
    rintro word hdash rfl
    exact hhead hdash
  rw [parseLoop.eq_def]
  simp only [hword "-p" rfl, hword "--known-hosts" rfl, hword "-i" rfl, hword "--password" rfl,
    hhead, or_self, if_false]
  exact (parseDestination_ok_iff hhead).mpr ⟨destination, rfl, hoptions⟩

/-- The loop reads settings up to a destination, and succeeds when the settings can be taken one
after the other. -/
theorem parseLoop_ok_iff {s : Settings} {args : List String} {options : Options} :
    parseLoop s args = .ok options ↔
      ∃ (settings : List Setting) (s' : Settings) (destination : Destination)
        (command : List String),
        args = settings.flatMap Setting.words ++ destination.word :: command ∧
        settings.foldlM Settings.take s = some s' ∧
        s'.options destination command = some options := by
  constructor
  · intro h
    induction hlength : args.length using Nat.strong_induction_on generalizing s args with
    | _ length ih =>
        obtain ⟨setting, s', rest, rfl, htake, hloop⟩ | ⟨destination, command, rfl, hoptions⟩ :=
          parseLoop_cases h
        · have hshort : rest.length < length := by
            -- every setting takes a word, so the rest is shorter
            have hwords : 0 < setting.words.length := by cases setting <;> simp [Setting.words]
            rw [List.length_append] at hlength
            omega
          obtain ⟨settings, last, destination, command, rfl, hfold, hoptions⟩ :=
            ih rest.length hshort hloop rfl
          refine ⟨setting :: settings, last, destination, command, by simp, ?_, hoptions⟩
          rw [List.foldlM_cons, htake]
          exact hfold
        · exact ⟨[], s, destination, command, rfl, rfl, hoptions⟩
  · rintro ⟨settings, s', destination, command, rfl, hfold, hoptions⟩
    induction settings generalizing s with
    | nil =>
        cases hfold
        exact parseLoop_destination destination command hoptions
    | cons setting settings ih =>
        rw [List.foldlM_cons] at hfold
        obtain ⟨taken, htake, hrest⟩ := Option.bind_eq_some_iff.mp hfold
        rw [List.flatMap_cons, List.append_assoc, parseLoop_setting htake]
        exact ih hrest

/-! ## The settings of a line -/

/-- What the settings of a line come to: the last of each kind. -/
def Settings.after (s : Settings) (settings : List Setting) : Settings where
  knownHosts := (settings.filterMap Setting.knownHosts?).getLast?.or s.knownHosts
  port := (settings.filterMap Setting.port?).getLast?.getD s.port
  auth := (settings.filterMap Setting.auth?).getLast?.getD s.auth
  authSelected := s.authSelected || !(settings.filterMap Setting.auth?).isEmpty

/-- Settings are applied one after the other. -/
theorem Settings.after_cons (s : Settings) (setting : Setting) (settings : List Setting) :
    (s.after [setting]).after settings = s.after (setting :: settings) := by
  have hlast {α : Type} (xs : List α) (x : α) :
      (x :: xs).getLast? = xs.getLast?.or (some x) := by
    rw [List.getLast?_cons]
    cases xs.getLast? <;> rfl
  cases setting <;>
    simp [Settings.after, List.filterMap_cons, Setting.knownHosts?, Setting.port?, Setting.auth?,
      hlast]

/-- A setting is taken unless it would be a second way to authenticate. -/
theorem take_eq_some_iff {s s' : Settings} {setting : Setting} :
    s.take setting = some s' ↔
      (setting.auth? ≠ none → s.authSelected = false) ∧ s' = s.after [setting] := by
  have hswap : ∀ after : Settings, some after = some s' ↔ s' = after := by
    intro after
    rw [Option.some.injEq, eq_comm]
  cases setting <;>
    simp [Settings.take, Settings.select_eq_some_iff, Settings.after, List.filterMap_cons,
      Setting.knownHosts?, Setting.port?, Setting.auth?, hswap]

/-- The count of the ways to authenticate, at the first setting. -/
theorem auth_count_cons (s : Settings) (setting : Setting) (settings : List Setting) :
    ((setting :: settings).filterMap Setting.auth?).length + s.authSelected.toNat ≤ 1 ↔
      (setting.auth? ≠ none → s.authSelected = false) ∧
        (settings.filterMap Setting.auth?).length + (s.after [setting]).authSelected.toNat ≤ 1 := by
  cases setting <;> cases hselected : s.authSelected <;>
    simp [Settings.after, List.filterMap_cons, Setting.auth?, hselected]

/-- All settings of a line are taken unless there are two ways to authenticate among them. -/
theorem foldlM_take_eq_some_iff {s s' : Settings} {settings : List Setting} :
    settings.foldlM Settings.take s = some s' ↔
      (settings.filterMap Setting.auth?).length + s.authSelected.toNat ≤ 1 ∧
        s' = s.after settings := by
  induction settings generalizing s with
  | nil =>
      have hle := s.authSelected.toNat_le
      simp [Settings.after, hle, eq_comm]
  | cons setting settings ih =>
      rw [List.foldlM_cons, Option.bind_eq_bind, Option.bind_eq_some_iff]
      rw [auth_count_cons, ← Settings.after_cons s setting settings]
      simp only [take_eq_some_iff, ih]
      constructor
      · rintro ⟨taken, ⟨hauth, rfl⟩, hle, rfl⟩
        exact ⟨⟨hauth, hle⟩, rfl⟩
      · rintro ⟨⟨hauth, hle⟩, rfl⟩
        exact ⟨_, ⟨hauth, rfl⟩, hle, rfl⟩

/-- `parse` returns options for the words of a command line and for no others, and they are the
options of that line. -/
theorem parse_accepts_grammar (home : Option String) (args : List String) (options : Options) :
    parse home args = .ok (some options) ↔
      ∃ line : CommandLine, line.words = args ∧ line.options home = some options := by
  have hloop : parse home args = .ok (some options) ↔
      parseLoop { knownHosts := home.map (joinPath · ".ssh/known_hosts") } args = .ok options := by
    unfold parse
    split
    case isTrue hhelp =>
      -- the help and the version are no settings
      rcases hhelp with rfl | rfl | rfl <;> simp [parseLoop]
    case isFalse hhelp =>
      cases parseLoop { knownHosts := home.map (joinPath · ".ssh/known_hosts") } args <;>
        simp [Except.map]
  rw [hloop, parseLoop_ok_iff]
  simp only [foldlM_take_eq_some_iff]
  constructor
  · rintro ⟨settings, s', destination, command, rfl, ⟨hauth, rfl⟩, hoptions⟩
    exact ⟨⟨settings, hauth, destination, command⟩, rfl, hoptions⟩
  · rintro ⟨line, rfl, hoptions⟩
    exact ⟨line.settings, _, line.destination, line.command, rfl, ⟨line.one_auth, rfl⟩, hoptions⟩

end Cli

end Rssh
