import Rssh.HostKey.Policy

/-!
# What an append leaves in the file

`RusshKnownHosts::learn` stores a record in several writes behind a newline probe. This module
follows the bytes: the prior content may be any bytes, and any write may fail part-way.

* `learn_ok_leaves` and `learn_leaves` are the file after a call that succeeds and after any
  call.
* `learn_ok_appends_record` is the result about calls that succeed.
-/

namespace Rssh

/-! ## The stored bytes -/

/-- The newline that ends an unterminated last line of the file. -/
def lineBreak (content : ByteArray) : String :=
  match content.data.back? with
  | none => ""
  | some lastByte => if lastByte = 10 then "" else "\n"

/-- The bytes that the `write_all` calls store, the first of them being number `n`. -/
def storedPieces (faults : FileFaults) : Nat → List String → ByteArray
  | _, [] => .empty
  | n, piece :: pieces =>
      match faults.write n with
      | some (stored, _) => piece.toUTF8.extract 0 stored
      | none => piece.toUTF8 ++ storedPieces faults (n + 1) pieces

/-- What has been written is the content with the stored pieces behind it. -/
theorem writePieces_snd (faults : FileFaults) (n : Nat) (content : ByteArray)
    (pieces : List String) :
    (writePieces faults n content pieces).2 = content ++ storedPieces faults n pieces := by
  induction pieces generalizing n content with
  | nil => simp [writePieces, storedPieces]
  | cons piece pieces ih =>
      cases hwrite : faults.write n with
      | some fault => simp only [writePieces, storedPieces, hwrite]
      | none => simp only [writePieces, storedPieces, hwrite, ih, ByteArray.append_assoc]

/-- When the writes succeed, the pieces are stored as they are. -/
theorem storedPieces_of_ok {faults : FileFaults} {n : Nat} {content content' : ByteArray}
    {pieces : List String} (h : writePieces faults n content pieces = (.ok (), content')) :
    storedPieces faults n pieces = (String.join pieces).toUTF8 := by
  induction pieces generalizing n content with
  | nil => rfl
  | cons piece pieces ih =>
      simp only [writePieces] at h
      split at h
      · cases h
      · rename_i hnone
        simp only [storedPieces, hnone, ih h, String.join_cons]
        simp [String.toUTF8_eq_toByteArray]

/-- A seek to the last byte fails only on an empty file, which needs no newline. -/
theorem needsNewline_of_seek {faults : FileFaults} (hseek : faults.seekLast = none)
    {content : ByteArray} {newline : Bool} (h : needsNewline faults content = .ok newline) :
    lineBreak content = if newline then "\n" else "" := by
  unfold needsNewline at h
  rw [hseek] at h
  cases hback : content.data.back? with
  | none =>
      simp only [hback, Except.ok.injEq] at h
      simp [lineBreak, hback, ← h]
  | some lastByte =>
      simp only [hback] at h
      cases hread : faults.readLast with
      | some message => simp [hread] at h
      | none =>
          simp only [hread, Except.ok.injEq] at h
          by_cases hlast : lastByte = 10 <;> simp [lineBreak, hback, hlast, ← h]

/-- The line break of a text is the one that its last line needs. -/
theorem lineBreak_text (text : String) :
    lineBreak text.toUTF8 = String.ofList (Text.separator text.toList) := by
  have hsep : Text.separator text.toList = [] ∨ Text.separator text.toList = ['\n'] := by
    unfold Text.separator
    split <;> simp
  rw [needsNewline_of_seek rfl (needsNewline_eq text)]
  rcases hsep with hsep | hsep <;> simp [hsep]

theorem join_endpointPieces (host : String) (port : UInt16) :
    String.join (endpointPieces host port) = endpointName host port ++ " " := by
  unfold endpointPieces endpointName
  split <;> simp [String.join_cons, String.append_assoc]

variable {Key : Type}

/-- The pieces of the record. A key that cannot be encoded is found out behind the endpoint. -/
def recordPieces (host : String) (port : UInt16) (encoded : Except KeysError String) :
    List String :=
  endpointPieces host port ++
    match encoded with
    | .ok openssh => [openssh, "\n"]
    | .error _ => []

/-- The part of the record that is in the file when `learn` returns, behind the newline that
ends the last line. -/
def storedRecord (faults : FileFaults) (content : ByteArray) (host : String) (port : UInt16)
    (encoded : Except KeysError String) : ByteArray :=
  if faults.createDirAll.isSome || faults.openFile.isSome || faults.seekEnd.isSome then .empty
  else
    match needsNewline faults content with
    | .error _ => .empty
    | .ok true =>
        if (faults.write 0).isSome then .empty
        else storedPieces faults 1 (recordPieces host port encoded)
    | .ok false => storedPieces faults 0 (recordPieces host port encoded)

/-- Pieces are written one after the other, up to the first failure. -/
theorem writePieces_append (faults : FileFaults) (n : Nat) (content : ByteArray)
    (first second : List String) :
    writePieces faults n content (first ++ second) =
      match writePieces faults n content first with
      | (.error error, content) => (.error error, content)
      | (.ok (), content) => writePieces faults (n + first.length) content second := by
  induction first generalizing n content with
  | nil => rfl
  | cons piece first ih =>
      cases hwrite : faults.write n with
      | some fault => simp only [List.cons_append, writePieces, hwrite]
      | none =>
          simp only [List.cons_append, writePieces, hwrite, ih, List.length_cons]
          rw [Nat.add_assoc, Nat.add_comm 1]

/-- The writes of a call that gets that far. -/
theorem learn_writes (russh : RusshKeys Key) {faults : FileFaults} {disk : Disk}
    {path host : String} {port : UInt16} {key : Key} {newline : Bool}
    (hdir : faults.createDirAll = none) (hopen : faults.openFile = none)
    (hnewline : needsNewline faults ((disk path).getD .empty) = .ok newline)
    (hend : faults.seekEnd = none) :
    (learn russh faults disk path host port key).2 =
      disk.write path ((disk path).getD .empty ++ storedPieces faults 0
        ((if newline then ["\n"] else []) ++
          recordPieces host port (russh.toOpenssh key))) := by
  generalize hcontent : (disk path).getD .empty = content at hnewline ⊢
  rw [recordPieces.eq_def, ← List.append_assoc, ← writePieces_snd, writePieces_append]
  simp only [learn, hdir, hopen, hend, hcontent, hnewline]
  generalize (if newline then ["\n"] else []) ++ endpointPieces host port = pieces
  rcases hwritten : writePieces faults 0 content pieces with ⟨_ | _, content'⟩
  · simp
  · cases hkey : russh.toOpenssh key with
    | error error => simp [writePieces]
    | ok openssh => simp

/-- The file after a call: untouched, created, or with the stored part of the record on a line
of its own. -/
theorem learn_leaves (russh : RusshKeys Key) {faults : FileFaults}
    (hseek : faults.seekLast = none) (disk : Disk) (path host : String) (port : UInt16)
    (key : Key) :
    ((learn russh faults disk path host port key).2 path = disk path ∧
      storedRecord faults ((disk path).getD .empty) host port (russh.toOpenssh key) = .empty) ∨
    ((learn russh faults disk path host port key).2 path = some ((disk path).getD .empty) ∧
      storedRecord faults ((disk path).getD .empty) host port (russh.toOpenssh key) = .empty) ∨
    (learn russh faults disk path host port key).2 path =
      some ((disk path).getD .empty ++ (lineBreak ((disk path).getD .empty)).toUTF8 ++
        storedRecord faults ((disk path).getD .empty) host port (russh.toOpenssh key)) := by
  cases hdir : faults.createDirAll with
  | some message => exact .inl ⟨by simp [learn, hdir], by simp [storedRecord, hdir]⟩
  | none =>
  cases hopen : faults.openFile with
  | some message => exact .inl ⟨by simp [learn, hdir, hopen], by simp [storedRecord, hopen]⟩
  | none =>
  cases hnewline : needsNewline faults ((disk path).getD .empty) with
  | error error =>
      exact .inr (.inl ⟨by simp [learn, hdir, hopen, hnewline], by simp [storedRecord, hnewline]⟩)
  | ok newline =>
  cases hend : faults.seekEnd with
  | some message =>
      exact .inr (.inl ⟨by simp [learn, hdir, hopen, hnewline, hend],
        by simp [storedRecord, hend]⟩)
  | none =>
  have hbreak := needsNewline_of_seek hseek hnewline
  rw [learn_writes russh hdir hopen hnewline hend, Disk.write_self, hbreak]
  simp only [storedRecord, hdir, hopen, hend, hnewline, Option.isSome_none, Bool.or_self,
    Bool.false_eq_true, if_false]
  cases newline with
  | false => exact .inr (.inr (by simp))
  | true =>
      -- the newline is the first write, and may fail with or without its byte
      cases hwrite : faults.write 0 with
      | none => exact .inr (.inr (by simp [storedPieces, hwrite, ByteArray.append_assoc]))
      | some fault =>
          rcases fault with ⟨stored, message⟩
          cases stored with
          | zero => exact .inr (.inl (by simp [storedPieces, hwrite]))
          | succ stored =>
              have hbyte : "\n".toByteArray.extract 0 (stored + 1) = "\n".toByteArray := by
                have hmax : max (stored + 1) "\n".toByteArray.size = stored + 1 :=
                  Nat.max_eq_left (Nat.le_add_left 1 stored)
                exact hmax ▸ ByteArray.extract_zero_max_size
              exact .inr (.inr (by simp [storedPieces, hwrite, hbyte]))

/-! ## Calls that succeed -/

/-- A call that succeeds has stored the whole record. -/
theorem learn_ok_leaves {russh : RusshKeys Key} {faults : FileFaults} {disk disk' : Disk}
    {path host : String} {port : UInt16} {key : Key} (hseek : faults.seekLast = none)
    (hok : learn russh faults disk path host port key = (.ok (), disk')) :
    ∃ openssh, russh.toOpenssh key = .ok openssh ∧
      disk' = disk.write path ((disk path).getD .empty ++
        (lineBreak ((disk path).getD .empty) ++ record host port openssh ++ "\n").toUTF8) := by
  cases hdir : faults.createDirAll with
  | some message => simp [learn, hdir] at hok
  | none =>
  cases hopen : faults.openFile with
  | some message => simp [learn, hdir, hopen] at hok
  | none =>
  cases hnewline : needsNewline faults ((disk path).getD .empty) with
  | error error => simp [learn, hdir, hopen, hnewline] at hok
  | ok newline =>
  cases hend : faults.seekEnd with
  | some message => simp [learn, hdir, hopen, hnewline, hend] at hok
  | none =>
  -- no call has failed, so the file was looked at
  have hbreak := needsNewline_of_seek hseek hnewline
  generalize hcontent : (disk path).getD .empty = content at hnewline hbreak ⊢
  simp only [learn, hdir, hopen, hend, hcontent, hnewline, Disk.write_write] at hok
  -- and all pieces are stored
  have hjoin (openssh : String) :
      String.join ((if newline then ["\n"] else []) ++ endpointPieces host port ++
        [openssh, "\n"]) = lineBreak content ++ record host port openssh ++ "\n" := by
    rw [hbreak, record, String.join_append, String.join_append, join_endpointPieces]
    cases newline <;> simp [String.join_cons, String.append_assoc]
  generalize (if newline then ["\n"] else []) ++ endpointPieces host port = pieces at hok hjoin
  rcases hfirst : writePieces faults 0 content pieces with ⟨_ | _, content₁⟩
  · simp [hfirst] at hok
  · cases hkey : russh.toOpenssh key with
    | error error => simp [hfirst, hkey] at hok
    | ok openssh =>
        rcases hrest : writePieces faults pieces.length content₁ [openssh, "\n"] with
          ⟨_ | _, content₂⟩
        · simp [hfirst, hkey, hrest] at hok
        · have hall : writePieces faults 0 content (pieces ++ [openssh, "\n"]) =
              (.ok (), content₂) := by
            simp [writePieces_append, hfirst, hrest]
          have hbytes := writePieces_snd faults 0 content (pieces ++ [openssh, "\n"])
          rw [storedPieces_of_ok hall, hall, hjoin] at hbytes
          refine ⟨openssh, rfl, ?_⟩
          simp only [hfirst, hkey, hrest, Prod.mk.injEq, true_and] at hok
          rw [← hok, ← hbytes]

/-- russh reads line by line and stops with an error at the first line that is no text, so
lines behind it do not matter. -/
structure ReadsLines [DecidableEq Key] (russh : RusshKeys Key)
    (lineKey : String → UInt16 → List Char → Option (Except String Key)) : Prop
    extends ReadsRecords russh lineKey where
  notTextTail : ∀ (bytes : ByteArray) (more : String) host port key,
    String.fromUTF8? bytes = none →
      bytes.data.back? = some 10 ∨ more.toList.head? = some '\n' →
        russh.checkKnownHostsPath (some (bytes ++ more.toUTF8)) host port key =
          russh.checkKnownHostsPath (some bytes) host port key

theorem fromUTF8?_eq_none_iff {bytes : ByteArray} :
    String.fromUTF8? bytes = none ↔ ¬ bytes.IsValidUTF8 := by
  unfold String.fromUTF8?
  split <;> simp_all

/-- Bytes that are no text are none with a text behind them either. -/
theorem fromUTF8?_append_eq_none {bytes : ByteArray} (h : String.fromUTF8? bytes = none)
    (more : String) : String.fromUTF8? (bytes ++ more.toUTF8) = none := by
  rw [fromUTF8?_eq_none_iff] at h ⊢
  intro hvalid
  exact h (Text.isValidUTF8_of_append hvalid more.isValidUTF8.isUTF8FirstByte_getElem_zero)

section Readers

variable [DecidableEq Key] {russh : RusshKeys Key}
  {lineKey : String → UInt16 → List Char → Option (Except String Key)}
  {host host' : String} {port port' : UInt16} {key : Key} {openssh : String}

/-- A missing file reads like an empty one. -/
theorem check_getD (hreads : ReadsKnownHosts russh lineKey) (content : Option ByteArray)
    (host : String) (port : UInt16) (key : Key) :
    russh.checkKnownHostsPath content host port key =
      russh.checkKnownHostsPath (some (content.getD .empty)) host port key := by
  cases content with
  | some bytes => rfl
  | none =>
      rw [hreads.missing, Option.getD_none]
      exact (hreads.text "" host port key).symm

theorem contains_getD (content : Option ByteArray) (host : String) (port : UInt16) :
    knownHostsContainsEndpoint content host port =
      knownHostsContainsEndpoint (some (content.getD .empty)) host port := by
  cases content with
  | some bytes => rfl
  | none => exact (knownHostsContainsEndpoint_text "" host port).symm

omit [DecidableEq Key] in
/-- The entries and the names of a text with more lines behind it. -/
theorem entries_append_lines (text more host : String) (port : UInt16) :
    entries lineKey (text ++ lineBreak text.toUTF8 ++ more) host port =
      entries lineKey text host port ++ entries lineKey more host port := by
  rw [lineBreak_text]
  simp only [entries, String.toList_append, String.toList_ofList,
    Text.rawLines_append_separator, List.filterMap_append]

/-- The scan looks at the lines of the file and then at the ones behind it. -/
theorem contains_append_lines (text more host : String) (port : UInt16) :
    knownHostsContainsEndpoint (some (text ++ lineBreak text.toUTF8 ++ more).toUTF8) host port =
      (knownHostsContainsEndpoint (some text.toUTF8) host port ||
        knownHostsContainsEndpoint (some more.toUTF8) host port) := by
  rw [lineBreak_text]
  simp only [knownHostsContainsEndpoint_text, String.toList_append, String.toList_ofList,
    Text.rawLines_append_separator, List.filterMap_append, List.any_append]

/-- The record starts on a line of its own. -/
theorem lineBreak_boundary {bytes : ByteArray} (h : String.fromUTF8? bytes = none)
    (line : String) :
    bytes.data.back? = some 10 ∨ (lineBreak bytes ++ line).toList.head? = some '\n' := by
  cases hback : bytes.data.back? with
  | none =>
      -- no bytes at all are a text
      have hempty : bytes = "".toUTF8 := by
        rw [ByteArray.ext_iff]
        simpa using hback
      rw [hempty, fromUTF8?_toUTF8] at h
      cases h
  | some lastByte =>
      by_cases hlast : lastByte = 10
      · exact .inl (by rw [hlast])
      · exact .inr (by simp [lineBreak, hback, hlast])

/-- The old content has neither another key of the presented key's algorithm nor an unreadable
key for the endpoint, and is a text. -/
def Consistent (russh : RusshKeys Key)
    (lineKey : String → UInt16 → List Char → Option (Except String Key))
    (content : Option ByteArray) (host : String) (port : UInt16) (key : Key) : Prop :=
  ∃ text : String, content.getD .empty = text.toUTF8 ∧
    ∀ entry ∈ entries lineKey text host port,
      ∃ k, entry = .ok k ∧ (russh.algorithm k = russh.algorithm key → k = key)

theorem append_lines_text (text more : String) :
    text.toUTF8 ++ (lineBreak text.toUTF8 ++ more).toUTF8 =
      (text ++ lineBreak text.toUTF8 ++ more).toUTF8 := by
  simp [String.toUTF8_eq_toByteArray, ByteArray.append_assoc]

/-- When the appended lines hold the key and no other one for the endpoint, russh knows the key,
unless the old content stands against it. -/
theorem check_append_lines_iff (hreads : ReadsLines russh lineKey) {more : String}
    (hmore : ∀ entry ∈ entries lineKey more host port, entry = .ok key)
    (hmem : .ok key ∈ entries lineKey more host port) (content : Option ByteArray) :
    russh.checkKnownHostsPath
        (some (content.getD .empty ++ (lineBreak (content.getD .empty) ++ more).toUTF8))
        host port key = .ok true ↔
      Consistent russh lineKey content host port key := by
  generalize hbytes : content.getD .empty = bytes
  cases htext : String.fromUTF8? bytes with
  | none =>
      -- a file that is no text stays none
      have hafter := fromUTF8?_append_eq_none htext (lineBreak bytes ++ more)
      rcases hreads.notText _ host port key hafter with ⟨message, hcheck⟩
      rw [hcheck]
      refine iff_of_false (by simp) ?_
      rintro ⟨text, heq, -⟩
      rw [hbytes.symm.trans heq, fromUTF8?_toUTF8] at htext
      cases htext
  | some text =>
      -- the new lines add the entries of this key only
      obtain rfl : bytes = text.toUTF8 := toUTF8_of_fromUTF8? htext
      rw [append_lines_text, hreads.text, entries_append_lines, verdict_eq_ok_iff]
      simp only [List.mem_append, hmem, or_true, and_true]
      constructor
      · intro hall
        exact ⟨text, hbytes, fun entry hentry => hall entry (.inl hentry)⟩
      · rintro ⟨text', heq, hall⟩
        obtain rfl : text = text' := by
          have := fromUTF8?_toUTF8 text'
          rw [← heq, hbytes, htext] at this
          exact Option.some.inj this
        rintro entry (hentry | hentry)
        · exact hall entry hentry
        · exact ⟨key, hmore entry hentry, fun _ => rfl⟩

/-- Appended lines without an entry for the endpoint change nothing for it. -/
theorem check_append_lines_of_nil (hreads : ReadsLines russh lineKey) {more : String}
    (hmore : entries lineKey more host port = []) (content : Option ByteArray) (key : Key) :
    russh.checkKnownHostsPath
        (some (content.getD .empty ++ (lineBreak (content.getD .empty) ++ more).toUTF8))
        host port key = russh.checkKnownHostsPath content host port key := by
  rw [check_getD hreads.toReadsKnownHosts content]
  generalize content.getD .empty = bytes
  cases htext : String.fromUTF8? bytes with
  | none => exact hreads.notTextTail bytes _ host port key htext (lineBreak_boundary htext _)
  | some text =>
      obtain rfl : bytes = text.toUTF8 := toUTF8_of_fromUTF8? htext
      rw [append_lines_text, hreads.text, hreads.text, entries_append_lines, hmore,
        List.append_nil]

/-- Lines that do not name an endpoint do not change what the scan finds. -/
theorem contains_append_lines_of_false {more : String}
    (hmore : knownHostsContainsEndpoint (some more.toUTF8) host port = false)
    (content : Option ByteArray) :
    knownHostsContainsEndpoint
        (some (content.getD .empty ++ (lineBreak (content.getD .empty) ++ more).toUTF8))
        host port = knownHostsContainsEndpoint content host port := by
  rw [contains_getD content]
  generalize content.getD .empty = bytes
  cases htext : String.fromUTF8? bytes with
  | none =>
      simp only [knownHostsContainsEndpoint, Option.bind_some, htext,
        fromUTF8?_append_eq_none htext]
  | some text =>
      obtain rfl : bytes = text.toUTF8 := toUTF8_of_fromUTF8? htext
      rw [append_lines_text, contains_append_lines, hmore, Bool.or_false]

omit [DecidableEq Key] in
theorem withRecord_empty (line : String) : withRecord "" line = line ++ "\n" := by
  rw [← String.toList_inj]
  simp [withRecord, Text.appendLine, Text.separator]

/-- A call that succeeds appends one record, on a line of its own. russh then knows the key,
unless the old content stands against it, and for every other endpoint both readers find what
they found before. -/
theorem learn_ok_appends_record (hreads : ReadsLines russh lineKey) {faults : FileFaults}
    {disk disk' : Disk} {path : String} (hseek : faults.seekLast = none)
    (hhost : PlainHost host) (hempty : host ≠ "")
    (hok : learn russh faults disk path host port key = (.ok (), disk')) :
    (∃ openssh, russh.toOpenssh key = .ok openssh ∧
      disk' = disk.write path ((disk path).getD .empty ++
        (lineBreak ((disk path).getD .empty) ++ record host port openssh ++ "\n").toUTF8)) ∧
    (russh.checkKnownHostsPath (disk' path) host port key = .ok true ↔
      Consistent russh lineKey (disk path) host port key) ∧
    ∀ host' port', PlainHost host' → endpointName host' port' ≠ endpointName host port →
      (∀ key', russh.checkKnownHostsPath (disk' path) host' port' key' =
        russh.checkKnownHostsPath (disk path) host' port' key') ∧
      knownHostsContainsEndpoint (disk' path) host' port' =
        knownHostsContainsEndpoint (disk path) host' port' := by
  rcases learn_ok_leaves hseek hok with ⟨openssh, hopenssh, rfl⟩
  refine ⟨⟨openssh, hopenssh, rfl⟩, ?_, ?_⟩
  · have hentries : entries lineKey (record host port openssh ++ "\n") host port = [.ok key] := by
      rw [← withRecord_empty, entries_withRecord hreads.toReadsRecords hhost hhost hopenssh,
        if_pos ⟨rfl, rfl⟩]
      rfl
    rw [Disk.write_self, String.append_assoc]
    refine check_append_lines_iff hreads ?_ ?_ (disk path)
    · simp [hentries]
    · simp [hentries]
  · intro host' port' hhost' hother
    have hname : endpointName host port ≠ "" := fun h =>
      hempty (endpointName_eq_empty_iff.mp h).1
    -- the record names another endpoint
    have hne : ¬ (host' = host ∧ port' = port) := by
      rw [← endpointName_inj hhost' hhost]
      exact hother
    rw [Disk.write_self, String.append_assoc]
    constructor
    · refine fun key' => check_append_lines_of_nil hreads ?_ (disk path) key'
      rw [← withRecord_empty, entries_withRecord hreads.toReadsRecords hhost' hhost hopenssh,
        if_neg hne, List.append_nil]
      rfl
    · refine contains_append_lines_of_false ?_ (disk path)
      rw [← withRecord_empty,
        knownHostsContainsEndpoint_withRecord hreads.toReadsRecords hhost' hhost hname hopenssh,
        decide_eq_false hne, Bool.or_false, knownHostsContainsEndpoint_text]
      rfl

end Readers

theorem SampleKey.readsLines : ReadsLines SampleKey.russh SampleKey.lineKey where
  toReadsRecords := SampleKey.readsRecords
  notTextTail bytes more host port key htext _ := by
    have hafter := fromUTF8?_append_eq_none htext more
    change SampleKey.checkKnownHostsPath (some (bytes ++ more.toUTF8)) host port key =
      SampleKey.checkKnownHostsPath (some bytes) host port key
    simp only [SampleKey.checkKnownHostsPath, htext, hafter]

/-- A key learned into a file that is not there. -/
theorem learn_ok_appends_record_noFile :
    ∃ after, learn SampleKey.russh {} (fun _ => none) "known_hosts" "example.com" 2222 .ed25519 =
        (.ok (), after) ∧
      SampleKey.russh.checkKnownHostsPath (after "known_hosts") "example.com" 2222 .ed25519 =
        .ok true ∧
      knownHostsContainsEndpoint (after "known_hosts") "example.com" 22 = false := by
  have hlearn : ∃ after, learn SampleKey.russh {} (fun _ => none) "known_hosts" "example.com"
      2222 .ed25519 = (.ok (), after) := ⟨_, rfl⟩
  rcases hlearn with ⟨after, hok⟩
  obtain ⟨-, hmatches, hframe⟩ := learn_ok_appends_record SampleKey.readsLines rfl
    (by decide +kernel) (by decide) hok
  refine ⟨after, hok, hmatches.mpr ⟨"", rfl, ?_⟩, ?_⟩
  · intro entry hentry
    cases hentry
  · exact (hframe "example.com" 22 (by decide +kernel) (by decide)).2

/-- A file of one byte that is no text: the record is appended, and russh cannot read the
file. -/
theorem learned_key_unread_in_binary_file :
    ∃ after, learn SampleKey.russh {} (fun _ => some ⟨#[255]⟩) "known_hosts" "example.com" 22
        .ed25519 = (.ok (), after) ∧
      SampleKey.russh.checkKnownHostsPath (after "known_hosts") "example.com" 22 .ed25519 =
        .error (.other "stream did not contain valid UTF-8") := by
  have hlearn : ∃ after, learn SampleKey.russh {} (fun _ => some ⟨#[255]⟩) "known_hosts"
      "example.com" 22 .ed25519 = (.ok (), after) := ⟨_, rfl⟩
  rcases hlearn with ⟨after, hok⟩
  rcases learn_ok_leaves rfl hok with ⟨openssh, -, rfl⟩
  have hbinary : String.fromUTF8? ⟨#[255]⟩ = none := by decide +kernel
  refine ⟨_, hok, ?_⟩
  rw [Disk.write_self]
  change SampleKey.checkKnownHostsPath (some (⟨#[255]⟩ ++ _)) _ _ _ = _
  simp only [SampleKey.checkKnownHostsPath, fromUTF8?_append_eq_none hbinary]

end Rssh
