import Rssh.HostKey.Learn

/-!
# An append that fails part-way

When a write of `learn` fails, the part of the record that is stored stays in the file, on a
line of its own. The next check of any endpoint reads it with the two readers of the file.

* `Settles` is the condition on the entries: adding entries and names changes the status of no
  key.
* `Harmless` is the condition on the file and the stored part, and
  `failed_learn_keeps_status_iff` says that it is exact.
-/

namespace Rssh

variable {Key : Type}

/-! ## The status over the entries -/

/-- The status for russh's answer, where `named` is the scan for plain names. -/
def statusOf (answer : Except KeysError Bool) (named : Bool) : Option HostKeyStatus :=
  match answer with
  | .ok true => some .known
  | .ok false => if named then some .changed else some .unknown
  | .error .keyChanged => some .changed
  | .error (.other _) => none

/-- The status is decided by the entries that `russh` reads and by the scan for names. -/
theorem hostKeyStatus_eq_statusOf (russh : RusshKeys Key) (path : String) (disk : Disk)
    (host : String) (port : UInt16) (key : Key) :
    hostKeyStatus russh (some path) disk host port key =
      statusOf (russh.checkKnownHostsPath (disk path) host port key)
        (knownHostsContainsEndpoint (disk path) host port) := by
  unfold hostKeyStatus statusOf
  rfl

/-- Some matching entry has an unreadable key. -/
def HasUnreadable (found : List (Except String Key)) : Prop :=
  ∃ message, .error message ∈ found

section Settles

variable [DecidableEq Key] {algorithm : Key → String} {key : Key}
  {found added : List (Except String Key)} {named namedToo : Bool}

/-- One unreadable entry leaves the endpoint without a status. -/
theorem statusOf_verdict_of_unreadable (h : HasUnreadable found) :
    statusOf (verdict algorithm key found) named = none := by
  rcases h with ⟨message, hmem⟩
  have hsome : found.findSome? unreadable ≠ none := by
    rw [Ne, findSome?_unreadable_eq_none]
    intro hall
    rcases hall _ hmem with ⟨k, hk⟩
    cases hk
  rcases Option.ne_none_iff_exists'.mp hsome with ⟨text, htext⟩
  simp [verdict, htext, statusOf]

/-- A key of the presented algorithm that is not the presented one. -/
def Conflict (algorithm : Key → String) (key : Key) (found : List (Except String Key)) : Prop :=
  ∃ k, .ok k ∈ found ∧ algorithm k = algorithm key ∧ k ≠ key

omit [DecidableEq Key] in
theorem readable_of_not_hasUnreadable (h : ¬ HasUnreadable found) {entry : Except String Key}
    (hmem : entry ∈ found) : ∃ k, entry = .ok k := by
  cases entry with
  | error message => exact absurd ⟨message, hmem⟩ h
  | ok k => exact ⟨k, rfl⟩

/-- Another key of the same algorithm means a changed key. -/
theorem status_of_conflict (h : ¬ HasUnreadable found) (hconflict : Conflict algorithm key found) :
    statusOf (verdict algorithm key found) named = some .changed := by
  have hread : found.findSome? unreadable = none :=
    findSome?_unreadable_eq_none.mpr fun entry hmem => readable_of_not_hasUnreadable h hmem
  have hany : found.any (conflicts algorithm key) = true := by
    rcases hconflict with ⟨k, hmem, hk⟩
    exact List.any_eq_true.mpr ⟨.ok k, hmem, by simpa [conflicts] using hk⟩
  simp [verdict, hread, hany, statusOf]

/-- A key that is recorded and has no rival is known. -/
theorem status_of_mem (h : ¬ HasUnreadable found) (hno : ¬ Conflict algorithm key found)
    (hkey : .ok key ∈ found) : statusOf (verdict algorithm key found) named = some .known := by
  have hverdict : verdict algorithm key found = .ok true := by
    refine verdict_eq_ok_iff.mpr ⟨?_, by simp [hkey]⟩
    intro entry hmem
    rcases readable_of_not_hasUnreadable h hmem with ⟨k, rfl⟩
    refine ⟨k, rfl, ?_⟩
    intro halg
    by_contra hne
    exact hno ⟨k, hmem, halg, hne⟩
  simp [hverdict, statusOf]

/-- Without a key of its algorithm, the scan decides. -/
theorem status_of_absent (h : ¬ HasUnreadable found) (hno : ¬ Conflict algorithm key found)
    (hkey : .ok key ∉ found) :
    statusOf (verdict algorithm key found) named =
      some (if named then .changed else .unknown) := by
  have hverdict : verdict algorithm key found = .ok false := by
    refine verdict_eq_ok_false_iff.mpr ?_
    intro entry hmem
    rcases readable_of_not_hasUnreadable h hmem with ⟨k, rfl⟩
    refine ⟨k, rfl, ?_⟩
    intro halg
    by_cases heq : k = key
    · exact hkey (heq ▸ hmem)
    · exact hno ⟨k, hmem, halg, heq⟩
  simp only [hverdict, statusOf]
  split <;> rfl

/-- Only an unreadable key leaves an endpoint without a status. -/
theorem status_ne_none (h : ¬ HasUnreadable found) :
    statusOf (verdict algorithm key found) named ≠ none := by
  by_cases hconflict : Conflict algorithm key found
  · simp [status_of_conflict h hconflict]
  · by_cases hkey : .ok key ∈ found
    · simp [status_of_mem h hconflict hkey]
    · simp [status_of_absent h hconflict hkey]

/-! ## Adding entries -/

/-- An added entry with the key `k` changes the status of no key: the key was there, or two
different keys of its algorithm were, or no key of its algorithm was there, the endpoint was
named, and another key of the algorithm is added too. -/
def SettlesKey (algorithm : Key → String) (found added : List (Except String Key)) (named : Bool)
    (k : Key) : Prop :=
  .ok k ∈ found ∨
  (∃ k₁ k₂, .ok k₁ ∈ found ∧ .ok k₂ ∈ found ∧ algorithm k₁ = algorithm k ∧
    algorithm k₂ = algorithm k ∧ k₁ ≠ k₂) ∨
  (named = true ∧ (∀ k', .ok k' ∈ found → algorithm k' ≠ algorithm k) ∧
    ∃ k', .ok k' ∈ added ∧ algorithm k' = algorithm k ∧ k' ≠ k)

/-- The added entries and names change the status of no key: an unreadable key was there before,
or every added key is settled and the endpoint was named before, if it is named now and some
algorithm has no key. -/
def Settles (algorithm : Key → String) (found added : List (Except String Key))
    (named namedToo : Bool) : Prop :=
  HasUnreadable found ∨
  (∀ entry ∈ added, ∃ k, entry = .ok k ∧ SettlesKey algorithm found added named k) ∧
    (namedToo = true → named = true ∨
      ∀ key, ∃ k, .ok k ∈ found ∧ algorithm k = algorithm key)

omit [DecidableEq Key] in
theorem hasUnreadable_append :
    HasUnreadable (found ++ added) ↔ HasUnreadable found ∨ HasUnreadable added := by
  simp [HasUnreadable, exists_or]

omit [DecidableEq Key] in
theorem conflict_append :
    Conflict algorithm key (found ++ added) ↔
      Conflict algorithm key found ∨ Conflict algorithm key added := by
  simp [Conflict, or_and_right, exists_or]

/-- An added key whose statuses do not change is settled. -/
theorem settlesKey_of_status {k : Key} (hfound : ¬ HasUnreadable found)
    (hadded : ¬ HasUnreadable added) (hmem : .ok k ∈ added)
    (hsame : ∀ key, statusOf (verdict algorithm key (found ++ added)) (named || namedToo) =
      statusOf (verdict algorithm key found) named) :
    SettlesKey algorithm found added named k := by
  have hboth : ¬ HasUnreadable (found ++ added) := by
    rw [hasUnreadable_append]
    exact not_or.mpr ⟨hfound, hadded⟩
  by_cases hk : .ok k ∈ found
  · exact .inl hk
  by_cases hconflict : Conflict algorithm k found
  · -- another key of the algorithm was there; alone it was known
    rcases hconflict with ⟨k₁, hk₁, halg, hne⟩
    by_cases hother : Conflict algorithm k₁ found
    · rcases hother with ⟨k₂, hk₂, halg₂, hne₂⟩
      exact .inr (.inl ⟨k₁, k₂, hk₁, hk₂, halg, halg₂.trans halg, Ne.symm hne₂⟩)
    · have hnow : Conflict algorithm k₁ (found ++ added) :=
        ⟨k, List.mem_append_right _ hmem, halg.symm, Ne.symm hne⟩
      have hstatus := hsame k₁
      rw [status_of_conflict hboth hnow, status_of_mem hfound hother hk₁] at hstatus
      simp at hstatus
  · -- no key of the algorithm was there
    have hold : statusOf (verdict algorithm k found) named = _ :=
      status_of_absent hfound hconflict hk
    by_cases hnow : Conflict algorithm k (found ++ added)
    · have hstatus := hsame k
      rw [status_of_conflict hboth hnow, hold] at hstatus
      -- the key itself becomes known, unless it has another rival
      have hnamed : named = true := by
        by_contra hnot
        simp [hnot] at hstatus
      rcases conflict_append.mp hnow with hin | ⟨k', hk', halg, hne⟩
      · exact absurd hin hconflict
      · refine .inr (.inr ⟨hnamed, ?_, k', hk', halg, hne⟩)
        intro k'' hk'' halg''
        by_cases heq : k'' = k
        · exact hk (heq ▸ hk'')
        · exact hconflict ⟨k'', hk'', halg'', heq⟩
    · have hstatus := hsame k
      rw [status_of_mem hboth hnow (List.mem_append_right _ hmem), hold] at hstatus
      split at hstatus <;> simp at hstatus

/-- A conflict among settled entries was one before, or concerns an endpoint that was named
without a key of the algorithm. -/
theorem status_of_settled (hfound : ¬ HasUnreadable found)
    (hadded : ∀ entry ∈ added, ∃ k, entry = .ok k ∧ SettlesKey algorithm found added named k)
    (hnamed : namedToo = true → named = true ∨
      ∀ key, ∃ k, .ok k ∈ found ∧ algorithm k = algorithm key) (key : Key) :
    statusOf (verdict algorithm key (found ++ added)) (named || namedToo) =
      statusOf (verdict algorithm key found) named := by
  have hboth : ¬ HasUnreadable (found ++ added) := by
    rw [hasUnreadable_append]
    refine not_or.mpr ⟨hfound, ?_⟩
    rintro ⟨message, hmem⟩
    rcases hadded _ hmem with ⟨k, hk, -⟩
    cases hk
  have hsettled {k : Key} (hmem : .ok k ∈ added) : SettlesKey algorithm found added named k := by
    rcases hadded _ hmem with ⟨k', hk', hsettles⟩
    exact Except.ok.inj hk' ▸ hsettles
  by_cases hconflict : Conflict algorithm key found
  · rw [status_of_conflict hfound hconflict,
      status_of_conflict hboth (conflict_append.mpr (.inl hconflict))]
  -- what was there of the algorithm is the key itself
  have honly {k : Key} (hmem : .ok k ∈ found) (halg : algorithm k = algorithm key) : k = key := by
    by_contra hne
    exact hconflict ⟨k, hmem, halg, hne⟩
  by_cases hkey : .ok key ∈ found
  · have hnone : ¬ Conflict algorithm key (found ++ added) := by
      rw [conflict_append]
      rintro (hin | ⟨k, hk, halg, hne⟩)
      · exact hconflict hin
      · rcases hsettled hk with hin | ⟨k₁, k₂, h₁, h₂, ha₁, ha₂, hdiff⟩ | ⟨-, hfree, -⟩
        · exact hne (honly hin halg)
        · exact hdiff ((honly h₁ (ha₁.trans halg)).trans (honly h₂ (ha₂.trans halg)).symm)
        · exact hfree key hkey halg.symm
    rw [status_of_mem hfound hconflict hkey,
      status_of_mem hboth hnone (List.mem_append_left _ hkey)]
  · -- no key of the algorithm was there
    have habsent {k : Key} (hmem : .ok k ∈ found) : algorithm k ≠ algorithm key := fun halg =>
      hkey (honly hmem halg ▸ hmem)
    rw [status_of_absent hfound hconflict hkey]
    by_cases hadd : ∃ k, .ok k ∈ added ∧ algorithm k = algorithm key
    · rcases hadd with ⟨k, hk, halg⟩
      have hthird : named = true ∧ ∃ k', .ok k' ∈ added ∧ algorithm k' = algorithm k ∧ k' ≠ k := by
        rcases hsettled hk with hin | ⟨k₁, k₂, h₁, -, ha₁, -⟩ | ⟨hname, -, hother⟩
        · exact absurd halg (habsent hin)
        · exact absurd (ha₁.trans halg) (habsent h₁)
        · exact ⟨hname, hother⟩
      rcases hthird with ⟨hname, k', hk', halg', hne'⟩
      have hnow : Conflict algorithm key (found ++ added) := by
        rw [conflict_append]
        by_cases heq : k = key
        · exact .inr ⟨k', hk', halg'.trans halg, heq ▸ hne'⟩
        · exact .inr ⟨k, hk, halg, heq⟩
      rw [status_of_conflict hboth hnow, if_pos hname]
    · have hnow : ¬ Conflict algorithm key (found ++ added) := by
        rw [conflict_append]
        rintro (hin | ⟨k, hk, halg, -⟩)
        · exact hconflict hin
        · exact hadd ⟨k, hk, halg⟩
      have hkey' : .ok key ∉ found ++ added := by
        rw [List.mem_append]
        exact not_or.mpr ⟨hkey, fun hin => hadd ⟨key, hin, rfl⟩⟩
      rw [status_of_absent hboth hnow hkey']
      cases hname : named with
      | true => simp
      | false =>
          cases htoo : namedToo with
          | false => rfl
          | true =>
              rcases hnamed htoo with hname' | hall
              · simp [hname] at hname'
              · rcases hall key with ⟨k, hk, halg⟩
                exact absurd halg (habsent hk)

/-- The condition is exact. -/
theorem settles_iff (key₀ : Key) :
    (∀ key, statusOf (verdict algorithm key (found ++ added)) (named || namedToo) =
      statusOf (verdict algorithm key found) named) ↔
    Settles algorithm found added named namedToo := by
  constructor
  · intro hsame
    by_cases hfound : HasUnreadable found
    · exact .inl hfound
    have hadded : ¬ HasUnreadable added := by
      intro hin
      have hstatus := hsame key₀
      rw [statusOf_verdict_of_unreadable (hasUnreadable_append.mpr (.inr hin))] at hstatus
      exact status_ne_none hfound hstatus.symm
    refine .inr ⟨?_, ?_⟩
    · intro entry hmem
      rcases readable_of_not_hasUnreadable hadded hmem with ⟨k, rfl⟩
      exact ⟨k, rfl, settlesKey_of_status hfound hadded hmem hsame⟩
    · intro htoo
      by_contra hnot
      rcases not_or.mp hnot with ⟨hname, hall⟩
      rcases not_forall.mp hall with ⟨key, hfree⟩
      -- a key of an algorithm without entries was unknown, and is not any more
      have habsent {k : Key} (hmem : .ok k ∈ found) : algorithm k ≠ algorithm key := fun halg =>
        hfree ⟨k, hmem, halg⟩
      have hconflict : ¬ Conflict algorithm key found := fun ⟨k, hmem, halg, _⟩ =>
        habsent hmem halg
      have hboth : ¬ HasUnreadable (found ++ added) := by
        rw [hasUnreadable_append]
        exact not_or.mpr ⟨hfound, hadded⟩
      have hstatus := hsame key
      rw [status_of_absent hfound hconflict (fun hmem => habsent hmem rfl), if_neg hname,
        htoo, Bool.or_true] at hstatus
      by_cases hnow : Conflict algorithm key (found ++ added)
      · simp [status_of_conflict hboth hnow] at hstatus
      · by_cases hkey : .ok key ∈ found ++ added
        · simp [status_of_mem hboth hnow hkey] at hstatus
        · simp [status_of_absent hboth hnow hkey] at hstatus
  · rintro (hfound | ⟨hadded, hnamed⟩) key
    · rw [statusOf_verdict_of_unreadable hfound,
        statusOf_verdict_of_unreadable (hasUnreadable_append.mpr (.inl hfound))]
    · by_cases hfound : HasUnreadable found
      · rw [statusOf_verdict_of_unreadable hfound,
          statusOf_verdict_of_unreadable (hasUnreadable_append.mpr (.inl hfound))]
      · exact status_of_settled hfound hadded hnamed key

end Settles

/-! ## The stored part of a record -/

/-- No character is cut at the start of these bytes. -/
def StartsCharacter (bytes : ByteArray) : Prop :=
  ∀ hpos : 0 < bytes.size, bytes[0].IsUTF8FirstByte

theorem startsCharacter_text (text : String) : StartsCharacter text.toUTF8 :=
  text.isValidUTF8.isUTF8FirstByte_getElem_zero

/-- Two pieces that each begin with a character do so together. -/
theorem StartsCharacter.append {first second : ByteArray} (hfirst : StartsCharacter first)
    (hsecond : StartsCharacter second) : StartsCharacter (first ++ second) := by
  intro hpos
  by_cases hsize : 0 < first.size
  · rw [ByteArray.getElem_append_left hsize]
    exact hfirst hsize
  · have hempty : first = .empty := by
      rw [← ByteArray.size_eq_zero_iff]
      omega
    subst hempty
    simp only [ByteArray.empty_append] at hpos ⊢
    exact hsecond hpos

/-- The stored bytes may end in the middle of a character, but they start with one. -/
theorem startsCharacter_storedPieces (faults : FileFaults) (n : Nat) (pieces : List String) :
    StartsCharacter (storedPieces faults n pieces) := by
  induction pieces generalizing n with
  | nil =>
      intro hpos
      simp [storedPieces] at hpos
  | cons piece pieces ih =>
      cases hwrite : faults.write n with
      | some fault =>
          simp only [storedPieces, hwrite]
          intro hpos
          rw [ByteArray.getElem_extract]
          exact startsCharacter_text piece _
      | none =>
          simp only [storedPieces, hwrite]
          exact (startsCharacter_text piece).append (ih (n + 1))

/-- A stored part of a record begins a character, even if it ends in the middle of one. -/
theorem startsCharacter_storedRecord (faults : FileFaults) (content : ByteArray) (host : String)
    (port : UInt16) (encoded : Except KeysError String) :
    StartsCharacter (storedRecord faults content host port encoded) := by
  have hempty : StartsCharacter .empty := fun hpos => by simp at hpos
  unfold storedRecord
  split
  · exact hempty
  · split
    · exact hempty
    · split
      · exact hempty
      · exact startsCharacter_storedPieces faults 1 _
    · exact startsCharacter_storedPieces faults 0 _

section Fault

variable [DecidableEq Key] {russh : RusshKeys Key}
  {lineKey : String → UInt16 → List Char → Option (Except String Key)}

/-- The stored part of a record changes no status: the file was no text before, so that no
endpoint had a status; or the part is a text whose entries and names are settled for every
endpoint; or it is cut inside a character, and every endpoint had an unreadable key. -/
def Harmless (russh : RusshKeys Key)
    (lineKey : String → UInt16 → List Char → Option (Except String Key))
    (content part : ByteArray) : Prop :=
  match String.fromUTF8? content, String.fromUTF8? part with
  | none, _ => True
  | some text, some more => ∀ host port,
      Settles russh.algorithm (entries lineKey text host port) (entries lineKey more host port)
        (knownHostsContainsEndpoint (some content) host port)
        (knownHostsContainsEndpoint (some part) host port)
  | some text, none => ∀ host port, HasUnreadable (entries lineKey text host port)

omit [DecidableEq Key] in
/-- Nothing stored is harmless. -/
theorem harmless_empty (content : ByteArray) : Harmless russh lineKey content .empty := by
  have hpart : String.fromUTF8? .empty = some "" := fromUTF8?_toUTF8 ""
  unfold Harmless
  rw [hpart]
  cases String.fromUTF8? content with
  | none => trivial
  | some text =>
      intro host port
      refine .inr ⟨?_, ?_⟩
      · intro entry hmem
        cases hmem
      · intro hnamed
        have hscan := knownHostsContainsEndpoint_text "" host port
        have hnone : knownHostsContainsEndpoint (some "".toUTF8) host port = false := by
          rw [hscan]
          rfl
        exact absurd (hnone.symm.trans hnamed) (by simp)

theorem statusOf_check_notText (hreads : ReadsKnownHosts russh lineKey) {bytes : ByteArray}
    (h : String.fromUTF8? bytes = none) (host : String) (port : UInt16) (key : Key)
    (named : Bool) :
    statusOf (russh.checkKnownHostsPath (some bytes) host port key) named = none := by
  rcases hreads.notText bytes host port key h with ⟨message, hcheck⟩
  rw [hcheck]
  rfl

/-- The statuses are the same with the stored part on a line of its own exactly when it is
harmless. -/
theorem same_status_iff_harmless (hreads : ReadsKnownHosts russh lineKey) (key₀ : Key)
    (content part : ByteArray) (hpart : StartsCharacter part) :
    (∀ host port key,
      statusOf
        (russh.checkKnownHostsPath (some (content ++ (lineBreak content).toUTF8 ++ part))
          host port key)
        (knownHostsContainsEndpoint (some (content ++ (lineBreak content).toUTF8 ++ part))
          host port) =
      statusOf (russh.checkKnownHostsPath (some content) host port key)
        (knownHostsContainsEndpoint (some content) host port)) ↔
    Harmless russh lineKey content part := by
  unfold Harmless
  cases htext : String.fromUTF8? content with
  | none =>
      -- what follows does not make a text of the file
      have hafter : String.fromUTF8? (content ++ (lineBreak content).toUTF8 ++ part) = none := by
        rw [fromUTF8?_eq_none_iff, ByteArray.append_assoc]
        intro hvalid
        refine fromUTF8?_eq_none_iff.mp htext (Text.isValidUTF8_of_append hvalid ?_)
        exact (startsCharacter_text _).append hpart
      simp only [statusOf_check_notText hreads hafter, statusOf_check_notText hreads htext,
        implies_true]
  | some text =>
      obtain rfl : content = text.toUTF8 := toUTF8_of_fromUTF8? htext
      cases hmore : String.fromUTF8? part with
      | none =>
          have hafter : String.fromUTF8?
              (text.toUTF8 ++ (lineBreak text.toUTF8).toUTF8 ++ part) = none := by
            rw [fromUTF8?_eq_none_iff] at hmore ⊢
            rwa [ByteArray.append_assoc, Text.isValidUTF8_toUTF8_append,
              Text.isValidUTF8_toUTF8_append]
          simp only [statusOf_check_notText hreads hafter, hreads.text]
          constructor
          · intro hsame host port
            by_contra hread
            exact status_ne_none hread (hsame host port key₀).symm
          · intro hall host port key
            exact (statusOf_verdict_of_unreadable (hall host port)).symm
      | some more =>
          obtain rfl : part = more.toUTF8 := toUTF8_of_fromUTF8? hmore
          have hafter : text.toUTF8 ++ (lineBreak text.toUTF8).toUTF8 ++ more.toUTF8 =
              (text ++ lineBreak text.toUTF8 ++ more).toUTF8 := by
            simp [String.toUTF8_eq_toByteArray]
          simp only [hafter, hreads.text, entries_append_lines, contains_append_lines,
            settles_iff key₀]

/-- A call that fails leaves every status as it was exactly when what it has stored of its
record is harmless. -/
theorem failed_learn_keeps_status_iff (hreads : ReadsKnownHosts russh lineKey)
    {faults : FileFaults} {disk disk' : Disk} {path host : String} {port : UInt16} {key : Key}
    {error : KeysError} (hseek : faults.seekLast = none)
    (hfail : learn russh faults disk path host port key = (.error error, disk')) :
    (∀ host' port' key', hostKeyStatus russh (some path) disk' host' port' key' =
      hostKeyStatus russh (some path) disk host' port' key') ↔
    Harmless russh lineKey ((disk path).getD .empty)
      (storedRecord faults ((disk path).getD .empty) host port (russh.toOpenssh key)) := by
  have hleaves := learn_leaves russh hseek disk path host port key
  simp only [hfail] at hleaves
  have hbefore (host' : String) (port' : UInt16) (key' : Key) :
      hostKeyStatus russh (some path) disk host' port' key' =
        statusOf (russh.checkKnownHostsPath (some ((disk path).getD .empty)) host' port' key')
          (knownHostsContainsEndpoint (some ((disk path).getD .empty)) host' port') := by
    rw [hostKeyStatus_eq_statusOf, check_getD hreads, contains_getD]
  rcases hleaves with ⟨hcontent, hpart⟩ | ⟨hcontent, hpart⟩ | hcontent
  · -- the file was not touched
    rw [hpart]
    refine iff_of_true ?_ (harmless_empty _)
    intro host' port' key'
    simp only [hostKeyStatus_eq_statusOf, hcontent]
  · -- the file was only created
    rw [hpart]
    refine iff_of_true ?_ (harmless_empty _)
    intro host' port' key'
    rw [hbefore, hostKeyStatus_eq_statusOf, hcontent]
  · have hstart : StartsCharacter
        (storedRecord faults ((disk path).getD .empty) host port (russh.toOpenssh key)) :=
      startsCharacter_storedRecord faults _ host port _
    rw [← same_status_iff_harmless hreads key _ _ hstart]
    simp only [hbefore, hostKeyStatus_eq_statusOf, hcontent]

end Fault

/-- The newline write fails after its byte: the last line is ended, and nothing else. -/
theorem failed_learn_keeps_status_iff_newline :
    let faults : FileFaults := { write := fun n => if n = 0 then some (1, "disk full") else none }
    let disk : Disk := fun _ => some "example.com".toUTF8
    ∃ disk', learn SampleKey.russh faults disk "known_hosts" "other.org" 22 .ed25519 =
        (.error (.other "disk full"), disk') ∧
      ∀ host' port' key',
        hostKeyStatus SampleKey.russh (some "known_hosts") disk' host' port' key' =
          hostKeyStatus SampleKey.russh (some "known_hosts") disk host' port' key' := by
  intro faults disk
  have hfail : ∃ disk', learn SampleKey.russh faults disk "known_hosts" "other.org" 22 .ed25519 =
      (.error (.other "disk full"), disk') := ⟨_, rfl⟩
  rcases hfail with ⟨disk', hfail⟩
  refine ⟨disk', hfail, ?_⟩
  exact (failed_learn_keeps_status_iff SampleKey.readsKnownHosts rfl hfail).mpr
    (harmless_empty _)

/-- The blank behind the host name is not stored: an endpoint that was unknown counts as
changed from then on. -/
theorem failed_learn_changes_status :
    let faults : FileFaults := { write := fun n => if n = 1 then some (0, "disk full") else none }
    let disk : Disk := fun _ => none
    ∃ disk', learn SampleKey.russh faults disk "known_hosts" "example.com" 22 .ed25519 =
        (.error (.other "disk full"), disk') ∧
      hostKeyStatus SampleKey.russh (some "known_hosts") disk "example.com" 22 .ed25519 =
        some .unknown ∧
      hostKeyStatus SampleKey.russh (some "known_hosts") disk' "example.com" 22 .ed25519 =
        some .changed := by
  intro faults disk
  refine ⟨_, rfl, by decide +kernel, by decide +kernel⟩

end Rssh
