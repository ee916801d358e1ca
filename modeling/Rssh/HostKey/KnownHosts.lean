import Rssh.Types

/-!
# The known-hosts file

`RusshKnownHosts::learn` appends a record to a known-hosts file, and two readers
look endpoints up in it: russh's `check_known_hosts_path`, which also understands
hashed names, and `known_hosts_contains_endpoint`, which compares plain names only.

russh is not part of the repository. Its key operations are the parameter
`RusshKeys`, and what its documentation promises about them is stated as `Prop`
structures:

* `ReadsKnownHosts`: the verdict over the entries that match the endpoint;
* `ReadsRecords`: a record `name[,name] algorithm base64` reads back as its key.

The results below say what each reader finds after an append.
-/

namespace Rssh

/-! ## Files and keys -/

/-- File contents by path; `none` when there is no such file. -/
abbrev Disk := String → Option ByteArray

def Disk.write (disk : Disk) (path : String) (content : ByteArray) : Disk :=
  fun p => if p = path then some content else disk p

/-- A file holds what was written last. -/
@[simp] theorem Disk.write_self (disk : Disk) (path : String) (content : ByteArray) :
    disk.write path content path = some content := if_pos rfl

@[simp] theorem Disk.write_write (disk : Disk) (path : String) (first second : ByteArray) :
    (disk.write path first).write path second = disk.write path second := by
  funext p
  by_cases h : p = path <;> simp [Disk.write, h]

/-- `russh::keys::Error`: a changed key, or any other error with its text. -/
inductive KeysError where
  | keyChanged
  | other (message : String)
deriving DecidableEq, Repr

/-- The operations of russh on host keys. `checkKnownHostsPath` is given the
content of the file, `checkKnownHosts` finds the default file itself. -/
structure RusshKeys (Key : Type) where
  algorithm : Key → String
  fingerprint : Key → String
  toOpenssh : Key → Except KeysError String
  checkKnownHostsPath : Option ByteArray → String → UInt16 → Key → Except KeysError Bool
  checkKnownHosts : Disk → String → UInt16 → Key → Except KeysError Bool

/-! ## The scan for plain names -/

/-- The name of an endpoint in a known-hosts record. -/
def endpointName (host : String) (port : UInt16) : String :=
  if port = 22 then host else "[" ++ host ++ "]:" ++ toString port

/-- Only an empty host on port 22 has an empty name. -/
theorem endpointName_eq_empty_iff {host : String} {port : UInt16} :
    endpointName host port = "" ↔ host = "" ∧ port = 22 := by
  unfold endpointName
  split
  · rename_i hport
    simp [hport]
  · rename_i hport
    simp [hport]

/-- Every endpoint of a valid session configuration has a name. -/
theorem endpointName_ne_empty_of_tryNew {host username : String} {port : UInt16}
    {initialSize : TerminalSize} {config : SshSessionConfig}
    (h : SshSessionConfig.tryNew host port username initialSize = .ok config) :
    endpointName config.host config.port ≠ "" := by
  rw [Ne, endpointName_eq_empty_iff]
  rintro ⟨hhost, -⟩
  unfold SshSessionConfig.tryNew at h
  dsimp only at h
  -- the checks in order; only the last branch makes a configuration
  repeat' split at h
  all_goals cases h
  exact absurd hhost (by assumption)

/-- Does a comma-separated list of names name the endpoint? -/
def namesEndpoint (host : String) (port : UInt16) (hosts : List Char) : Bool :=
  (hosts.splitOn ',').any fun candidate =>
    candidate == (endpointName host port).toList ||
      (port == 22 && candidate == host.toList) ||
      (port == 22 && candidate == ("[" ++ host ++ "]:22").toList)

/-- `known_hosts_contains_endpoint`: an unreadable file contains nothing. -/
def knownHostsContainsEndpoint (content : Option ByteArray) (host : String) (port : UInt16) :
    Bool :=
  match content.bind String.fromUTF8? with
  | none => false
  | some contents =>
      ((Text.lines contents.toList).filterMap Text.firstToken).any (namesEndpoint host port)

/-! ## Appending a record -/

/-- What the operating system answers to the file operations of one `learn`:
an error text for each call that fails, and for the `n`-th `write_all` also how
many bytes were stored before it failed. -/
structure FileFaults where
  createDirAll : Option String := none
  openFile : Option String := none
  seekLast : Option String := none
  readLast : Option String := none
  seekEnd : Option String := none
  write : Nat → Option (Nat × String) := fun _ => none

/-- The `write_all` calls for the given pieces, the first of them being number `n`. -/
def writePieces (faults : FileFaults) : Nat → ByteArray → List String →
    Except KeysError Unit × ByteArray
  | _, content, [] => (.ok (), content)
  | n, content, piece :: pieces =>
      match faults.write n with
      | some (stored, message) =>
          (.error (.other message), content ++ piece.toUTF8.extract 0 stored)
      | none => writePieces faults (n + 1) (content ++ piece.toUTF8) pieces

/-- Does the file end in an unterminated line? A failing seek to the last byte
counts as an empty file, a failing read is an error. -/
def needsNewline (faults : FileFaults) (content : ByteArray) : Except KeysError Bool :=
  match faults.seekLast, content.data.back? with
  | none, some lastByte =>
      match faults.readLast with
      | some message => .error (.other message)
      | none => .ok (lastByte != 10)
  | _, _ => .ok false

/-- The pieces in which `write!` stores the endpoint. -/
def endpointPieces (host : String) (port : UInt16) : List String :=
  if port = 22 then [host, " "] else ["[", host, "]:", toString port, " "]

variable {Key : Type}

/-- `RusshKnownHosts::learn`. The file exists from the `open` on, and an error
later on leaves behind what was already written. -/
def learn (russh : RusshKeys Key) (faults : FileFaults) (disk : Disk) (path host : String)
    (port : UInt16) (key : Key) : Except KeysError Unit × Disk :=
  match faults.createDirAll with
  | some message => (.error (.other message), disk)
  | none =>
  match faults.openFile with
  | some message => (.error (.other message), disk)
  | none =>
  -- opened for appending, and created when missing
  let content := (disk path).getD ByteArray.empty
  let disk := disk.write path content
  match needsNewline faults content with
  | .error error => (.error error, disk)
  | .ok newline =>
  match faults.seekEnd with
  | some message => (.error (.other message), disk)
  | none =>
  let pieces := (if newline then ["\n"] else []) ++ endpointPieces host port
  match writePieces faults 0 content pieces with
  | (.error error, content) => (.error error, disk.write path content)
  | (.ok (), content) =>
  -- the endpoint is already in the file when the key is encoded
  match russh.toOpenssh key with
  | .error error => (.error error, disk.write path content)
  | .ok openssh =>
  let (written, content) := writePieces faults pieces.length content [openssh, "\n"]
  (written, disk.write path content)

/-! ## What russh reads -/

/-- The entries of a text that match an endpoint, in file order, each with its key
or the reason why the key is unreadable. `lineKey` reads one line. -/
def entries (lineKey : String → UInt16 → List Char → Option (Except String Key)) (text : String)
    (host : String) (port : UInt16) : List (Except String Key) :=
  (Text.rawLines text.toList).filterMap (lineKey host port)

/-- Why an entry's key is unreadable. -/
def unreadable : Except String Key → Option String
  | .error message => some message
  | .ok _ => none

/-- An entry with another key of the presented key's algorithm. -/
def conflicts [DecidableEq Key] (algorithm : Key → String) (key : Key) : Except String Key → Bool
  | .error _ => false
  | .ok k => algorithm k = algorithm key ∧ k ≠ key

/-- The answer over the matching entries: an unreadable key is an error; then
another key of the same algorithm is a changed key; then the presented key must be
among them. -/
def verdict [DecidableEq Key] (algorithm : Key → String) (key : Key)
    (found : List (Except String Key)) : Except KeysError Bool :=
  match found.findSome? unreadable with
  | some message => .error (.other message)
  | none =>
      if found.any (conflicts algorithm key) then .error .keyChanged
      else .ok (found.contains (.ok key))

/-- The documented behaviour of `check_known_hosts_path`: an absent file has no
entries, a text is judged by its matching entries, bytes that are no text are an
error. -/
structure ReadsKnownHosts [DecidableEq Key] (russh : RusshKeys Key)
    (lineKey : String → UInt16 → List Char → Option (Except String Key)) : Prop where
  missing : ∀ host port key, russh.checkKnownHostsPath none host port key = .ok false
  text : ∀ (text : String) host port key,
    russh.checkKnownHostsPath (some text.toUTF8) host port key =
      verdict russh.algorithm key (entries lineKey text host port)
  notText : ∀ (bytes : ByteArray) host port key, String.fromUTF8? bytes = none →
    ∃ message, russh.checkKnownHostsPath (some bytes) host port key = .error (.other message)

/-- `check_known_hosts` reads the default file as `check_known_hosts_path` would. -/
def ReadsDefaultFile (russh : RusshKeys Key) (defaultPath : String) : Prop :=
  ∀ (disk : Disk) host port key,
    russh.checkKnownHosts disk host port key =
      russh.checkKnownHostsPath (disk defaultPath) host port key

/-- A plain list of names: no blank, and none of the characters that mark a comment
or a hashed name. -/
def PlainNames (names : List Char) : Prop :=
  ∀ c ∈ names, Text.isWhitespace c = false ∧ c ≠ '#' ∧ c ≠ '|'

/-- Records read back: `to_openssh` gives `algorithm base64` on one line, and a line
`name[,name] algorithm base64` is an entry with that key for the names it lists,
and for no other endpoint. -/
structure ReadsRecords [DecidableEq Key] (russh : RusshKeys Key)
    (lineKey : String → UInt16 → List Char → Option (Except String Key)) : Prop
    extends ReadsKnownHosts russh lineKey where
  encodes : ∀ key, ∃ base64 : String,
    russh.toOpenssh key = .ok (russh.algorithm key ++ " " ++ base64) ∧
      '\n' ∉ (russh.algorithm key ++ " " ++ base64).toList
  record : ∀ (key : Key) (openssh : String) (names : List Char) host port,
    russh.toOpenssh key = .ok openssh → PlainNames names →
      lineKey host port (names ++ ' ' :: openssh.toList) =
        if (endpointName host port).toList ∈ names.splitOn ',' then some (.ok key) else none

/-! ## The verdict -/

/-- No entry is unreadable exactly when each of them has a key. -/
theorem findSome?_unreadable_eq_none {found : List (Except String Key)} :
    found.findSome? unreadable = none ↔ ∀ entry ∈ found, ∃ k, entry = .ok k := by
  rw [List.findSome?_eq_none_iff]
  refine forall₂_congr fun entry _ => ?_
  cases entry <;> simp [unreadable]

section Verdict

variable [DecidableEq Key] {algorithm : Key → String} {key : Key}

/-- russh gives an answer exactly when every matching entry is readable and none
holds another key of the presented key's algorithm. -/
theorem verdict_eq_ok_iff {found : List (Except String Key)} {known : Bool} :
    verdict algorithm key found = .ok known ↔
      (∀ entry ∈ found, ∃ k, entry = .ok k ∧ (algorithm k = algorithm key → k = key)) ∧
        (.ok key ∈ found ↔ known = true) := by
  constructor
  · intro h
    unfold verdict at h
    split at h
    · simp at h
    · rename_i hread
      -- an answer means that the first two branches were not taken
      split at h
      · simp at h
      · rename_i hsame
        simp only [Except.ok.injEq] at h
        refine ⟨?_, by simp [← h]⟩
        intro entry hentry
        rcases findSome?_unreadable_eq_none.mp hread entry hentry with ⟨k, rfl⟩
        refine ⟨k, rfl, ?_⟩
        intro halg
        by_contra hne
        exact hsame (List.any_eq_true.mpr ⟨.ok k, hentry, by simp [conflicts, halg, hne]⟩)
  · rintro ⟨hall, hknown⟩
    have hread : found.findSome? unreadable = none :=
      findSome?_unreadable_eq_none.mpr fun entry hentry => ⟨_, (hall entry hentry).choose_spec.1⟩
    have hsame : ¬ found.any (conflicts algorithm key) = true := by
      intro h
      rcases List.any_eq_true.mp h with ⟨entry, hentry, h⟩
      rcases hall entry hentry with ⟨k, rfl, hk⟩
      simp only [conflicts, decide_eq_true_eq] at h
      exact h.2 (hk h.1)
    simp only [verdict, hread, if_neg hsame, Except.ok.injEq]
    rw [Bool.eq_iff_iff, List.contains_iff_mem, hknown]

/-- The key counts as unknown when every matching entry is readable and of another
algorithm. -/
theorem verdict_eq_ok_false_iff {found : List (Except String Key)} :
    verdict algorithm key found = .ok false ↔
      ∀ entry ∈ found, ∃ k, entry = .ok k ∧ algorithm k ≠ algorithm key := by
  rw [verdict_eq_ok_iff]
  constructor
  · rintro ⟨hall, hknown⟩ entry hentry
    rcases hall entry hentry with ⟨k, rfl, hk⟩
    refine ⟨k, rfl, ?_⟩
    intro halg
    obtain rfl := hk halg
    simpa using hknown.mp hentry
  · intro hall
    constructor
    · intro entry hentry
      rcases hall entry hentry with ⟨k, rfl, hk⟩
      exact ⟨k, rfl, fun halg => absurd halg hk⟩
    · simp only [Bool.false_eq_true, iff_false]
      intro hmem
      -- a matching key would be one of the same algorithm
      rcases hall _ hmem with ⟨k, hk, hne⟩
      exact hne (Except.ok.inj hk ▸ rfl)

/-- A key that is answered as known is among the matching entries. -/
theorem mem_of_verdict_eq_ok_true {found : List (Except String Key)}
    (h : verdict algorithm key found = .ok true) : .ok key ∈ found :=
  (verdict_eq_ok_iff.mp h).2.mpr rfl

end Verdict

/-! ## The scan of a text -/

theorem fromUTF8?_toUTF8 (text : String) : String.fromUTF8? text.toUTF8 = some text :=
  dif_pos text.isValidUTF8

/-- The scan sees the first token of every line. -/
theorem knownHostsContainsEndpoint_text (text host : String) (port : UInt16) :
    knownHostsContainsEndpoint (some text.toUTF8) host port =
      ((Text.rawLines text.toList).filterMap Text.firstToken).any (namesEndpoint host port) := by
  simp only [knownHostsContainsEndpoint, Option.bind_some, fromUTF8?_toUTF8,
    Text.filterMap_firstToken_lines]

/-! ## The record of an endpoint -/

/-- The line `learn` stores, without its newline. -/
def record (host : String) (port : UInt16) (openssh : String) : String :=
  endpointName host port ++ " " ++ openssh

/-- A text with one more record, on a line of its own. -/
def withRecord (text record : String) : String :=
  String.ofList (Text.appendLine text.toList record.toList)

/-- A host name without blanks, commas, brackets, `#` or `|`. -/
def PlainHost (host : String) : Prop :=
  ∀ c ∈ host.toList, Text.isWhitespace c = false ∧ c ≠ ',' ∧ c ≠ '[' ∧ c ≠ ']' ∧ c ≠ '#' ∧ c ≠ '|'

instance (host : String) : Decidable (PlainHost host) :=
  decidable_of_iff (host.toList.all fun c =>
    !Text.isWhitespace c && c != ',' && c != '[' && c != ']' && c != '#' && c != '|')
    (by simp [PlainHost, and_assoc])

theorem toList_toString_port (port : UInt16) :
    (toString port).toList = Nat.toDigits 10 port.toNat := Nat.toList_repr

/-- The bracketed form of an endpoint. -/
def bracketed (host : String) (port : UInt16) : List Char :=
  '[' :: host.toList ++ ']' :: ':' :: Nat.toDigits 10 port.toNat

/-- The default port is left out of the name. -/
theorem toList_endpointName (host : String) (port : UInt16) :
    (endpointName host port).toList = if port = 22 then host.toList else bracketed host port := by
  unfold endpointName
  split
  · rfl
  · simp [bracketed, toList_toString_port]

/-- A digit is none of the characters that end or open a field. -/
theorem digit_plain {c : Char} (h : c.isDigit = true) :
    Text.isWhitespace c = false ∧ c ≠ ',' ∧ c ≠ '#' ∧ c ≠ '|' := by
  have hrange : 48 ≤ c.toNat ∧ c.toNat ≤ 57 := by
    simpa [Char.isDigit, UInt32.le_iff_toNat_le] using h
  refine ⟨?_, ?_, ?_, ?_⟩
  · simp [Text.isWhitespace]
    omega
  all_goals
    rintro rfl
    revert hrange
    decide

/-- The name of a plain host has none of the characters that end a name or mark a
comment or a hashed name. -/
theorem mem_endpointName {host : String} (hhost : PlainHost host) {port : UInt16} {c : Char}
    (hc : c ∈ (endpointName host port).toList) :
    Text.isWhitespace c = false ∧ c ≠ ',' ∧ c ≠ '#' ∧ c ≠ '|' := by
  rw [toList_endpointName] at hc
  have hin : c ∈ host.toList → Text.isWhitespace c = false ∧ c ≠ ',' ∧ c ≠ '#' ∧ c ≠ '|' := by
    intro h
    rcases hhost c h with ⟨hblank, hcomma, -, -, hhash, hbar⟩
    exact ⟨hblank, hcomma, hhash, hbar⟩
  split at hc
  · exact hin hc
  · simp only [bracketed, List.cons_append, List.mem_cons, List.mem_append] at hc
    rcases hc with rfl | hc | rfl | rfl | hc
    · decide
    · exact hin hc
    · decide
    · decide
    · exact digit_plain (Nat.isDigit_of_mem_toDigits (by decide) (by decide) hc)

section Plain

variable {host host' : String} {port port' : UInt16} (hhost : PlainHost host)
  (hhost' : PlainHost host')

include hhost

theorem plainNames_endpointName : PlainNames (endpointName host port).toList := by
  intro c hc
  rcases mem_endpointName hhost hc with ⟨hblank, -, hhash, hbar⟩
  exact ⟨hblank, hhash, hbar⟩

theorem splitOn_endpointName :
    (endpointName host port).toList.splitOn ',' = [(endpointName host port).toList] :=
  List.splitOn_eq_singleton fun hc => (mem_endpointName hhost hc).2.1 rfl

/-- A plain host is no bracketed form. -/
theorem host_ne_bracketed : host.toList ≠ bracketed host' port' := by
  intro h
  exact (hhost '[' (h ▸ by simp [bracketed])).2.2.1 rfl

include hhost'

/-- Names in brackets tell hosts and ports apart. -/
theorem bracketed_inj :
    bracketed host port = bracketed host' port' ↔ host = host' ∧ port = port' := by
  constructor
  · intro h
    have hclose : ']' ∉ host.toList := fun hc => (hhost _ hc).2.2.2.1 rfl
    have hclose' : ']' ∉ host'.toList := fun hc => (hhost' _ hc).2.2.2.1 rfl
    simp only [bracketed, List.cons_append, List.cons.injEq, true_and] at h
    -- the host is what stands before the first closing bracket
    have hsplit := congrArg (List.splitOn ']') h
    rw [List.splitOn_append_cons_self_of_not_mem hclose,
      List.splitOn_append_cons_self_of_not_mem hclose'] at hsplit
    obtain rfl : host = host' := String.toList_inj.mp (List.cons.inj hsplit).1
    have hdigits : Nat.toDigits 10 port.toNat = Nat.toDigits 10 port'.toNat := by simpa using h
    refine ⟨rfl, UInt16.toNat_inj.mp ?_⟩
    simpa using congrArg (Nat.ofDigitChars 10 · 0) hdigits
  · rintro ⟨rfl, rfl⟩
    rfl

/-- Plain endpoints have different names. -/
theorem endpointName_inj :
    endpointName host port = endpointName host' port' ↔ host = host' ∧ port = port' := by
  rw [← String.toList_inj, toList_endpointName, toList_endpointName]
  by_cases h : port = 22 <;> by_cases h' : port' = 22
  · simp [h, h', String.toList_inj]
  · rw [if_pos h, if_neg h']
    exact iff_of_false (host_ne_bracketed hhost) fun heq => h' (heq.2 ▸ h)
  · rw [if_neg h, if_pos h']
    exact iff_of_false (host_ne_bracketed hhost').symm fun heq => h (heq.2 ▸ h')
  · rw [if_neg h, if_neg h']
    exact bracketed_inj hhost hhost'

/-- The name in a record names its own endpoint only. -/
theorem namesEndpoint_endpointName :
    namesEndpoint host port (endpointName host' port').toList =
      decide (host = host' ∧ port = port') := by
  have htwenty : ("[" ++ host ++ "]:22").toList = bracketed host 22 := by
    simp only [String.toList_append, bracketed]
    rfl
  -- neither of the two further spellings of port 22 is the name of another endpoint
  have hplain : port = 22 → (endpointName host' port').toList = host.toList →
      host = host' ∧ port = port' := by
    intro hport hname
    have : endpointName host port = endpointName host' port' := by
      rw [← String.toList_inj, hname, toList_endpointName, if_pos hport]
    exact (endpointName_inj hhost hhost').mp this
  have hbracketed : (endpointName host' port').toList ≠ bracketed host 22 := by
    rw [toList_endpointName]
    split
    · exact host_ne_bracketed hhost'
    · rename_i hport
      exact fun h => hport ((bracketed_inj hhost' hhost).mp h).2
  rw [Bool.eq_iff_iff]
  simp only [namesEndpoint, splitOn_endpointName hhost', List.any_cons, List.any_nil,
    Bool.or_false, htwenty, Bool.or_eq_true, Bool.and_eq_true, beq_iff_eq,
    decide_eq_true_eq, hbracketed, and_false, or_false, String.toList_inj]
  rw [eq_comm (a := endpointName host' port'), endpointName_inj hhost hhost']
  constructor
  · rintro (h | ⟨hport, hname⟩)
    · exact h
    · exact hplain hport (by rw [hname])
  · exact .inl

end Plain

/-! ## After an append -/

/-- With every file operation succeeding, the pieces are appended in order. -/
theorem writePieces_eq (n : Nat) (text : String) (pieces : List String) :
    writePieces {} n text.toUTF8 pieces = (.ok (), (pieces.foldl (· ++ ·) text).toUTF8) := by
  induction pieces generalizing n text with
  | nil => rfl
  | cons piece pieces ih =>
      have happend : text.toUTF8 ++ piece.toUTF8 = (text ++ piece).toUTF8 := by
        simp [String.toUTF8_eq_toByteArray]
      simp only [writePieces, happend, ih, List.foldl_cons]

/-- The newline test on the bytes is the test on the text. -/
theorem needsNewline_eq (text : String) :
    needsNewline {} text.toUTF8 = .ok (Text.separator text.toList != []) := by
  obtain h | ⟨init, last, h⟩ := List.eq_nil_or_concat text.toList
  · obtain rfl : text = "" := by simpa using h
    rfl
  · obtain rfl : text = (String.ofList init).push last := by
      rw [← String.toList_inj, h]
      simp
    rcases Text.back?_toUTF8_push (String.ofList init) last with ⟨b, hb, hb10⟩
    simp only [needsNewline, hb, h]
    by_cases hlast : last = '\n'
    · simp [hb10.mpr hlast, hlast, Text.separator]
    · have hne : (b != 10) = true := by simpa using fun hb' => hlast (hb10.mp hb')
      have hsep : Text.separator (init.concat last) = ['\n'] := by simp [Text.separator]
      rw [hne, hsep]
      rfl

/-- With every file operation succeeding, `learn` appends the record on a line of its
own, whether or not the file existed. -/
theorem learn_eq {russh : RusshKeys Key} {disk : Disk} {path host : String} {port : UInt16}
    {key : Key} {content : Option String} {openssh : String}
    (hcontent : disk path = content.map String.toUTF8)
    (hopenssh : russh.toOpenssh key = .ok openssh) :
    learn russh {} disk path host port key =
      (.ok (), disk.write path
        (withRecord (content.getD "") (record host port openssh)).toUTF8) := by
  have hbytes : (disk path).getD ByteArray.empty = (content.getD "").toUTF8 := by
    rw [hcontent]
    cases content <;> rfl
  have htext : ∀ text : String,
      (((if Text.separator text.toList != [] then ["\n"] else []) ++ endpointPieces host port
        ++ [openssh, "\n"]).foldl (· ++ ·) text) = withRecord text (record host port openssh) := by
    intro text
    rw [← String.toList_inj]
    have hsep : Text.separator text.toList = [] ∨ Text.separator text.toList = ['\n'] := by
      unfold Text.separator
      split <;> simp
    rcases hsep with hsep | hsep <;> by_cases hport : port = 22 <;>
      simp [withRecord, record, Text.appendLine, endpointName, endpointPieces, hsep, hport]
  simp only [learn, hbytes, needsNewline_eq, writePieces_eq, hopenssh, Disk.write_write,
    ← List.foldl_append, htext]

section Append

variable [DecidableEq Key] {russh : RusshKeys Key}
  {lineKey : String → UInt16 → List Char → Option (Except String Key)}
  {host host' : String} {port port' : UInt16} {key : Key} {openssh : String}

/-- A record is one line. -/
theorem newline_not_mem_record (hreads : ReadsRecords russh lineKey) (hhost : PlainHost host)
    (hopenssh : russh.toOpenssh key = .ok openssh) :
    '\n' ∉ (record host port openssh).toList := by
  rcases hreads.encodes key with ⟨base64, hkey, hline⟩
  obtain rfl : openssh = _ := Except.ok.inj (hopenssh.symm.trans hkey)
  have hname : '\n' ∉ (endpointName host port).toList := fun hc =>
    absurd (mem_endpointName hhost hc).1 (by decide)
  rw [record, String.toList_append, String.toList_append]
  simp only [List.mem_append, not_or]
  exact ⟨⟨hname, by decide⟩, hline⟩

/-- russh finds a record for the endpoint it names, and for no other one. -/
theorem lineKey_record_line (hreads : ReadsRecords russh lineKey) (hhost : PlainHost host)
    (hhost' : PlainHost host') (hopenssh : russh.toOpenssh key = .ok openssh)
    (port port' : UInt16) :
    lineKey host port (record host' port' openssh).toList =
      if host = host' ∧ port = port' then some (.ok key) else none := by
  have hnames : PlainNames (endpointName host' port').toList := plainNames_endpointName hhost'
  have hread := hreads.record key openssh _ host port hopenssh hnames
  simp only [splitOn_endpointName hhost', List.mem_singleton, String.toList_inj,
    endpointName_inj hhost hhost'] at hread
  simpa [record] using hread

/-- The first word of a record is the endpoint's name. -/
theorem firstToken_record (hhost : PlainHost host) (hname : endpointName host port ≠ "")
    (openssh : String) :
    Text.firstToken (record host port openssh).toList = some (endpointName host port).toList := by
  rw [record, String.toList_append, String.toList_append, List.append_assoc]
  exact Text.firstToken_append_cons (by simpa using hname)
    (fun c hc => (mem_endpointName hhost hc).1) (by decide)

/-- After an append, russh finds the old entries and, for the endpoint of the record,
its key. -/
theorem entries_withRecord (hreads : ReadsRecords russh lineKey) (hhost : PlainHost host)
    (hhost' : PlainHost host') (hopenssh : russh.toOpenssh key = .ok openssh) (text : String) :
    entries lineKey (withRecord text (record host' port' openssh)) host port =
      entries lineKey text host port ++
        if host = host' ∧ port = port' then [.ok key] else [] := by
  have hnewline : '\n' ∉ (record host' port' openssh).toList :=
    newline_not_mem_record hreads hhost' hopenssh
  have hline := lineKey_record_line hreads hhost hhost' hopenssh port port'
  unfold entries withRecord
  rw [String.toList_ofList, Text.rawLines_appendLine _ hnewline, List.filterMap_append]
  simp only [List.filterMap_cons, List.filterMap_nil, hline]
  split <;> simp_all

/-- After an append, the scan finds what it found before and the endpoint of the
record, provided the record has a name to find. -/
theorem knownHostsContainsEndpoint_withRecord (hreads : ReadsRecords russh lineKey)
    (hhost : PlainHost host) (hhost' : PlainHost host') (hname : endpointName host' port' ≠ "")
    (hopenssh : russh.toOpenssh key = .ok openssh) (text : String) :
    knownHostsContainsEndpoint
        (some (withRecord text (record host' port' openssh)).toUTF8) host port =
      (knownHostsContainsEndpoint (some text.toUTF8) host port ||
        decide (host = host' ∧ port = port')) := by
  have hnewline : '\n' ∉ (record host' port' openssh).toList :=
    newline_not_mem_record hreads hhost' hopenssh
  have htoken := firstToken_record hhost' hname openssh
  rw [knownHostsContainsEndpoint_text, knownHostsContainsEndpoint_text, withRecord,
    String.toList_ofList, Text.rawLines_appendLine _ hnewline, List.filterMap_append,
    List.any_append]
  simp [htoken, namesEndpoint_endpointName hhost hhost']

end Append

/-! ## A key store to run on

Three keys and one hashed name, enough to evaluate the checks on concrete files. -/

inductive SampleKey where
  | ed25519
  | ed25519Alt
  | ecdsa
deriving DecidableEq, Repr

namespace SampleKey

def algorithm : SampleKey → String
  | ed25519 => "ssh-ed25519"
  | ed25519Alt => "ssh-ed25519"
  | ecdsa => "ecdsa-sha2-nistp256"

def base64 : SampleKey → String
  | ed25519 => "AAAAC3NzaC1lZDI1NTE5AAAAIJdD7y3aLq454yWBdwLWbieU1ebz9/cu7/QEXn9OIeZJ"
  | ed25519Alt => "AAAAC3NzaC1lZDI1NTE5AAAAILagOJFgwaMNhBWQINinKOXmqS4Gh5NgxgriXwdOoINJ"
  | ecdsa =>
      "AAAAE2VjZHNhLXNoYTItbmlzdHAyNTYAAAAIbmlzdHAyNTYAAABBBNAMGZ04KNiq+ZJp/p" ++
      "TiWRbusvBjVF4K7BSOb9zNz7D327g4D5CV51EuZSBdslNGYKAw2haOKffBno6Hwpx5u3E="

def fingerprint : SampleKey → String
  | ed25519 => "SHA256:T7SvZ2cslqpPj6nKzitCBHHlpVF3r3MvLwmFL0fk0IE"
  | ed25519Alt => "SHA256:ldyiXa1JQakitNU5tErauu8DvWQ1dZ7aXu+rm7KQuog"
  | ecdsa => "SHA256:PEEQ/XGRyFbTiFup9OKGZiTb0ERzBvPy0l60dOJAfJo"

def openssh (key : SampleKey) : String := key.algorithm ++ " " ++ key.base64

def parse (text : List Char) : Except String SampleKey :=
  match [ed25519, ed25519Alt, ecdsa].find? (·.base64.toList = text) with
  | some key => .ok key
  | none => .error "Could not read key"

/-- The hashed form of `ssh.example.com`: HMAC-SHA1 under the salt in its first half. -/
def hashedName : String := "|1|AQIDBAUGBwgJCgsMDQ4PEBESExQ=|wGQUIRRC04WYQZ1lcCVoJDGbL9c="

def matchHostname (name : String) (hosts : List Char) : Bool :=
  (hosts.splitOn ',').any fun entry =>
    if entry.take 3 = "|1|".toList then
      entry == hashedName.toList && name == "ssh.example.com"
    else entry == name.toList

def lineKey (host : String) (port : UInt16) (line : List Char) :
    Option (Except String SampleKey) :=
  if line.head? = some '#' then none
  else
    match line.splitOn ' ' with
    | hosts :: _ :: key :: _ =>
        if matchHostname (endpointName host port) hosts then some (parse key) else none
    | _ => none

def checkKnownHostsPath (content : Option ByteArray) (host : String) (port : UInt16)
    (key : SampleKey) : Except KeysError Bool :=
  match content with
  | none => .ok false
  | some bytes =>
      match String.fromUTF8? bytes with
      | none => .error (.other "stream did not contain valid UTF-8")
      | some text => verdict algorithm key (entries lineKey text host port)

def defaultPath : String := "/home/user/.ssh/known_hosts"

def russh : RusshKeys SampleKey where
  algorithm := algorithm
  fingerprint := fingerprint
  toOpenssh key := .ok key.openssh
  checkKnownHostsPath := checkKnownHostsPath
  checkKnownHosts disk := checkKnownHostsPath (disk defaultPath)

/-- The sample key store reads files as `russh` does. -/
theorem readsKnownHosts : ReadsKnownHosts russh lineKey where
  missing _ _ _ := rfl
  text text host port key := by
    change checkKnownHostsPath (some text.toUTF8) host port key = _
    simp only [checkKnownHostsPath, fromUTF8?_toUTF8]
    rfl
  notText bytes host port key h := by
    refine ⟨"stream did not contain valid UTF-8", ?_⟩
    change checkKnownHostsPath (some bytes) host port key = _
    simp only [checkKnownHostsPath, h]

/-- Without patterns and hashes a name is looked up in the list of names. -/
theorem matchHostname_plain {names : List Char} (hnames : PlainNames names) (name : String) :
    matchHostname name names = decide (name.toList ∈ names.splitOn ',') := by
  have hplain : ∀ entry ∈ names.splitOn ',', entry.take 3 ≠ "|1|".toList := by
    intro entry hentry htake
    have hbar : '|' ∈ entry := by
      refine List.mem_of_mem_take (i := 3) ?_
      rw [htake]
      decide
    exact (hnames _ (Text.mem_of_mem_splitOn hentry hbar)).2.2 rfl
  rw [Bool.eq_iff_iff, matchHostname, List.any_eq_true, decide_eq_true_eq]
  constructor
  · rintro ⟨entry, hentry, h⟩
    rw [if_neg (hplain entry hentry), beq_iff_eq] at h
    exact h ▸ hentry
  · intro hmem
    exact ⟨_, hmem, by rw [if_neg (hplain _ hmem), beq_iff_eq]⟩

theorem base64_inj {key key' : SampleKey} : key.base64 = key'.base64 ↔ key = key' := by
  cases key <;> cases key' <;> decide +kernel

theorem base64_plain (key : SampleKey) : key.base64.toList.all (!Text.isWhitespace ·) = true := by
  cases key <;> decide +kernel

theorem algorithm_plain (key : SampleKey) :
    key.algorithm.toList.all (!Text.isWhitespace ·) = true := by
  cases key <;> decide

theorem not_mem_of_plain {s : List Char} {blank : Char} (hs : s.all (!Text.isWhitespace ·) = true)
    (hblank : Text.isWhitespace blank = true) : blank ∉ s := by
  intro hc
  simpa [hblank] using List.all_eq_true.mp hs blank hc

theorem parse_base64 (key : SampleKey) : parse key.base64.toList = .ok key := by
  simp only [parse, String.toList_inj, base64_inj]
  cases key <;> rfl

/-- A line `names algorithm base64` is an entry for the names it lists, plain or
hashed. -/
theorem lineKey_record (key : SampleKey) {names : List Char} (hblank : ' ' ∉ names)
    (hcomment : '#' ∉ names) (host : String) (port : UInt16) :
    lineKey host port (names ++ ' ' :: key.openssh.toList) =
      if matchHostname (endpointName host port) names then some (.ok key) else none := by
  have hhead : (names ++ ' ' :: key.openssh.toList).head? ≠ some '#' := by
    cases names with
    | nil => simp
    | cons c cs => simpa using fun hc : c = '#' => hcomment (by simp [hc])
  have hfields : key.openssh.toList.splitOn ' ' =
      [key.algorithm.toList, key.base64.toList] := by
    have halgorithm : ' ' ∉ key.algorithm.toList :=
      not_mem_of_plain (algorithm_plain key) (by decide)
    have hbase64 : ' ' ∉ key.base64.toList := not_mem_of_plain (base64_plain key) (by decide)
    have hopenssh : key.openssh.toList = key.algorithm.toList ++ ' ' :: key.base64.toList := by
      simp [openssh]
    rw [hopenssh, List.splitOn_append_cons_self_of_not_mem halgorithm,
      List.splitOn_eq_singleton hbase64]
  rw [lineKey, if_neg hhead, List.splitOn_append_cons_self_of_not_mem hblank, hfields]
  simp only [parse_base64]

/-- The text of a sample key is one line. -/
theorem newline_not_mem_openssh (key : SampleKey) : '\n' ∉ key.openssh.toList := by
  have halgorithm : '\n' ∉ key.algorithm.toList :=
    not_mem_of_plain (algorithm_plain key) (by decide)
  have hbase64 : '\n' ∉ key.base64.toList := not_mem_of_plain (base64_plain key) (by decide)
  rw [openssh, String.toList_append, String.toList_append]
  simp only [List.mem_append, not_or]
  exact ⟨⟨halgorithm, by decide⟩, hbase64⟩

/-- The sample key store reads the records that are appended. -/
theorem readsRecords : ReadsRecords russh lineKey where
  toReadsKnownHosts := readsKnownHosts
  encodes key := ⟨key.base64, rfl, newline_not_mem_openssh key⟩
  record key openssh names host port hopenssh hnames := by
    obtain rfl : key.openssh = openssh := Except.ok.inj hopenssh
    have hblank : ' ' ∉ names := fun hc => absurd (hnames _ hc).1 (by decide)
    have hcomment : '#' ∉ names := fun hc => (hnames _ hc).2.1 rfl
    simp only [lineKey_record key hblank hcomment, matchHostname_plain hnames, decide_eq_true_eq]

/-- A file with one line. -/
def file (names : String) (key : SampleKey) : String :=
  names ++ " " ++ key.openssh ++ "\n"

/-- A sample file has one line. -/
theorem rawLines_file {names : String} (hnames : names.toList.all (!Text.isWhitespace ·) = true)
    (key : SampleKey) :
    Text.rawLines (file names key).toList = [names.toList ++ ' ' :: key.openssh.toList] := by
  have hfile : (file names key).toList =
      (names.toList ++ ' ' :: key.openssh.toList) ++ ['\n'] := by
    simp [file]
  rw [hfile, Text.rawLines_concat_newline]
  refine List.splitOn_eq_singleton ?_
  simp only [List.mem_append, List.mem_cons, not_or]
  exact ⟨not_mem_of_plain hnames (by decide), by decide, newline_not_mem_openssh key⟩

/-- The one line of a sample file is an entry of the endpoints that it names. -/
theorem entries_file {names : String} (hnames : names.toList.all (!Text.isWhitespace ·) = true)
    (hcomment : '#' ∉ names.toList) (key : SampleKey) (host : String) (port : UInt16) :
    entries lineKey (file names key) host port =
      if matchHostname (endpointName host port) names.toList then [.ok key] else [] := by
  rw [entries, rawLines_file hnames]
  simp only [List.filterMap_cons, List.filterMap_nil,
    lineKey_record key (not_mem_of_plain hnames (by decide)) hcomment]
  split <;> simp_all

/-- The scan of a sample file looks at the names of its one line. -/
theorem knownHostsContainsEndpoint_file {names : String} (hne : names ≠ "")
    (hnames : names.toList.all (!Text.isWhitespace ·) = true) (key : SampleKey) (host : String)
    (port : UInt16) :
    knownHostsContainsEndpoint (some (file names key).toUTF8) host port =
      namesEndpoint host port names.toList := by
  have htoken : Text.firstToken (names.toList ++ ' ' :: key.openssh.toList) = some names.toList :=
    Text.firstToken_append_cons (by simpa using hne)
      (fun c hc => by simpa using List.all_eq_true.mp hnames c hc) (by decide)
  rw [knownHostsContainsEndpoint_text, rawLines_file hnames]
  simp [htoken]

end SampleKey

end Rssh
