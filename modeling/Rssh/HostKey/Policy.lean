import Rssh.HostKey.KnownHosts

/-!
# Host-key policy

`RusshClientHandler::check_server_key` classifies the presented key as known,
unknown or changed and lets the host-key policy decide about unknown keys only: a
changed key is rejected whatever the policy or the verifier says.

* `hostKeyStatus` is the classification. A configured file is read twice, by russh
  and by the scan for plain names; the default file is read by russh alone.
* `checkServerKey` is the whole check, with the file it leaves behind and the
  challenges shown to the verifier.

`conflicting_key_rejected_iff` and `default_file_agrees_iff` say exactly when the
two readers together recognise a conflicting entry, and when the default file is
treated like a configured one.
-/

namespace Rssh

/-! ## Policies, decisions and challenges -/

inductive RusshHostKeyPolicy where
  | rejectUnknown
  | prompt
  | trustOnFirstUse
  | acceptUnknown
deriving DecidableEq, Repr

inductive HostKeyDecision where
  | acceptOnce
  | acceptAndStore
  | reject
  | cancel
deriving DecidableEq, Repr

def HostKeyDecision.accepts : HostKeyDecision → Bool
  | acceptOnce => true
  | acceptAndStore => true
  | reject => false
  | cancel => false

def HostKeyDecision.stores : HostKeyDecision → Bool
  | acceptAndStore => true
  | _ => false

/-- Whether the key supplied in a challenge is already trusted. -/
inductive HostKeyStatus where
  | known
  | unknown
  | changed
deriving DecidableEq, Repr

structure HostKeyChallenge where
  host : String
  port : UInt16
  algorithm : String
  fingerprint : String
  status : HostKeyStatus
  knownHostsPath : Option String := none
deriving DecidableEq, Repr

/-- The fields of `RusshClientHandler` that `check_server_key` reads. The verifier is
what its callback answers to a challenge. -/
structure RusshClientHandler where
  hostKeyPolicy : RusshHostKeyPolicy
  host : Option String
  port : Option UInt16
  knownHostsPath : Option String
  hostKeyVerifier : Option (HostKeyChallenge → HostKeyDecision)

/-- `handler_for_host`: the opener's host-key settings, for one endpoint. -/
def handlerForHost (hostKeyPolicy : RusshHostKeyPolicy) (knownHostsPath : Option String)
    (hostKeyVerifier : Option (HostKeyChallenge → HostKeyDecision)) (host : String)
    (port : UInt16) : RusshClientHandler where
  hostKeyPolicy := hostKeyPolicy
  host := some host
  port := some port
  knownHostsPath := knownHostsPath
  hostKeyVerifier := hostKeyVerifier

/-! ## The check -/

variable {Key : Type}

/-- The status of the presented key; `none` when the known-hosts file cannot be
read. -/
def hostKeyStatus (russh : RusshKeys Key) (knownHostsPath : Option String) (disk : Disk)
    (host : String) (port : UInt16) (key : Key) : Option HostKeyStatus :=
  match knownHostsPath with
  | some path =>
      match russh.checkKnownHostsPath (disk path) host port key with
      | .ok true => some .known
      | .ok false =>
          -- no key of the presented algorithm; the endpoint may still have another one
          if knownHostsContainsEndpoint (disk path) host port then some .changed
          else some .unknown
      | .error .keyChanged => some .changed
      | .error (.other _) => none
  | none =>
      match russh.checkKnownHosts disk host port key with
      | .ok true => some .known
      | .ok false => some .unknown
      | .error .keyChanged => some .changed
      | .error (.other _) => none

/-- What one `check_server_key` leaves behind: its answer, the files and the
challenges shown to the verifier. -/
structure HostKeyCheck where
  answer : Except KeysError Bool
  disk : Disk
  shown : List HostKeyChallenge := []

/-- The challenge for a key of the given status. -/
def RusshClientHandler.challenge (russh : RusshKeys Key) (handler : RusshClientHandler)
    (host : String) (port : UInt16) (key : Key) (status : HostKeyStatus) : HostKeyChallenge where
  host := host
  port := port
  algorithm := russh.algorithm key
  fingerprint := russh.fingerprint key
  status := status
  knownHostsPath := handler.knownHostsPath

/-- Record the key in the configured file; without one, the key is refused. -/
def learnAndAccept (russh : RusshKeys Key) (faults : FileFaults) (knownHostsPath : Option String)
    (disk : Disk) (host : String) (port : UInt16) (key : Key) : Except KeysError Bool × Disk :=
  match knownHostsPath with
  | none => (.ok false, disk)
  | some path =>
      match learn russh faults disk path host port key with
      | (.error error, disk) => (.error error, disk)
      | (.ok (), disk) => (.ok true, disk)

/-- The policy's answer about an unknown key. -/
def decideUnknown (russh : RusshKeys Key) (faults : FileFaults) (handler : RusshClientHandler)
    (disk : Disk) (host : String) (port : UInt16) (key : Key) : HostKeyCheck :=
  match handler.hostKeyPolicy with
  | .rejectUnknown => { answer := .ok false, disk }
  | .acceptUnknown => { answer := .ok true, disk }
  | .trustOnFirstUse =>
      let (answer, disk) := learnAndAccept russh faults handler.knownHostsPath disk host port key
      { answer, disk }
  | .prompt =>
      match handler.hostKeyVerifier with
      | none => { answer := .ok false, disk }
      | some verify =>
          let challenge := handler.challenge russh host port key .unknown
          let decision := verify challenge
          if !decision.accepts then { answer := .ok false, disk, shown := [challenge] }
          else if decision.stores then
            let (answer, disk) :=
              learnAndAccept russh faults handler.knownHostsPath disk host port key
            { answer, disk, shown := [challenge] }
          else { answer := .ok true, disk, shown := [challenge] }

/-- `check_server_key`. A prompt verifier is shown a changed key too, but its decision
is ignored. -/
def checkServerKey (russh : RusshKeys Key) (faults : FileFaults) (handler : RusshClientHandler)
    (disk : Disk) (key : Key) : HostKeyCheck :=
  match handler.host, handler.port with
  | some host, some port =>
      match hostKeyStatus russh handler.knownHostsPath disk host port key with
      | none => { answer := .ok false, disk }
      | some .known => { answer := .ok true, disk }
      | some .changed =>
          { answer := .ok false, disk,
            shown :=
              if handler.hostKeyPolicy = .prompt ∧ handler.hostKeyVerifier.isSome then
                [handler.challenge russh host port key .changed]
              else [] }
      | some .unknown => decideUnknown russh faults handler disk host port key
  | _, _ => { answer := .ok false, disk }

/-- The answer is a rejection and no file was touched. -/
def HostKeyCheck.Rejects (check : HostKeyCheck) (disk : Disk) : Prop :=
  check.answer = .ok false ∧ check.disk = disk

/-- Does the handler take a key that it finds unknown? -/
def RusshClientHandler.takesUnknown (russh : RusshKeys Key) (handler : RusshClientHandler)
    (host : String) (port : UInt16) (key : Key) : Bool :=
  match handler.hostKeyPolicy with
  | .rejectUnknown => false
  | .acceptUnknown => true
  | .trustOnFirstUse => true
  | .prompt =>
      handler.hostKeyVerifier.any fun verify =>
        (verify (handler.challenge russh host port key .unknown)).accepts

/-! ## What the policy can do -/

section Policy

variable {russh : RusshKeys Key} {faults : FileFaults} {handler : RusshClientHandler}
  {disk : Disk} {path host : String} {port : UInt16} {key : Key}

/-- A key is known when russh says so. -/
theorem hostKeyStatus_eq_known_iff :
    hostKeyStatus russh (some path) disk host port key = some .known ↔
      russh.checkKnownHostsPath (disk path) host port key = .ok true := by
  unfold hostKeyStatus
  dsimp only
  split
  · simp_all
  · split <;> simp_all
  · simp_all
  · simp_all

/-- A key is unknown to a configured file when neither reader finds the endpoint. -/
theorem hostKeyStatus_eq_unknown_iff :
    hostKeyStatus russh (some path) disk host port key = some .unknown ↔
      russh.checkKnownHostsPath (disk path) host port key = .ok false ∧
        knownHostsContainsEndpoint (disk path) host port = false := by
  unfold hostKeyStatus
  dsimp only
  split <;> simp_all

/-- What russh does not recognise as changed, the scan does. -/
theorem hostKeyStatus_eq_changed
    (hcheck : russh.checkKnownHostsPath (disk path) host port key = .ok false)
    (hcontains : knownHostsContainsEndpoint (disk path) host port = true) :
    hostKeyStatus russh (some path) disk host port key = some .changed := by
  simp [hostKeyStatus, hcheck, hcontains]

/-- An unknown key is left to the policy. -/
theorem checkServerKey_of_unknown (faults : FileFaults) (handler : RusshClientHandler)
    (hhost : handler.host = some host) (hport : handler.port = some port)
    (hstatus : hostKeyStatus russh handler.knownHostsPath disk host port key = some .unknown) :
    checkServerKey russh faults handler disk key =
      decideUnknown russh faults handler disk host port key := by
  simp [checkServerKey, hhost, hport, hstatus]

theorem checkServerKey_of_changed (faults : FileFaults) (handler : RusshClientHandler)
    (hhost : handler.host = some host) (hport : handler.port = some port)
    (hstatus : hostKeyStatus russh handler.knownHostsPath disk host port key = some .changed) :
    (checkServerKey russh faults handler disk key).Rejects disk := by
  simp [checkServerKey, hhost, hport, hstatus, HostKeyCheck.Rejects]

/-- With a configured file, recording a key never ends in a refusal. -/
theorem learnAndAccept_ne_refused :
    (learnAndAccept russh faults (some path) disk host port key).1 ≠ .ok false := by
  unfold learnAndAccept
  dsimp only
  split <;> simp

/-- With a configured file, an unknown key is rejected exactly when the handler does
not take unknown keys, and then no file is touched. -/
theorem decideUnknown_rejects_iff (hpath : handler.knownHostsPath = some path) :
    (decideUnknown russh faults handler disk host port key).Rejects disk ↔
      handler.takesUnknown russh host port key = false := by
  have hlearn : ¬ (learnAndAccept russh faults (some path) disk host port key).1 = .ok false :=
    learnAndAccept_ne_refused
  unfold decideUnknown RusshClientHandler.takesUnknown HostKeyCheck.Rejects
  cases handler.hostKeyPolicy with
  | rejectUnknown => simp
  | acceptUnknown => simp
  -- a key that cannot be stored is an error, not a rejection
  | trustOnFirstUse => simp [hpath, hlearn]
  | prompt =>
      cases handler.hostKeyVerifier with
      | none => simp
      | some verify =>
          simp only [Option.any_some]
          cases haccepts : (verify (handler.challenge russh host port key .unknown)).accepts with
          | false => simp
          | true =>
              -- the user accepts, and may want the key stored
              simp only [Bool.not_true, Bool.false_eq_true, if_false, Bool.true_eq_false, iff_false]
              split
              · simp [hpath, hlearn]
              · simp

/-- The check rejects unless the key is known, or unknown and taken. -/
theorem checkServerKey_rejects_iff (hhost : handler.host = some host)
    (hport : handler.port = some port) (hpath : handler.knownHostsPath = some path) :
    (checkServerKey russh faults handler disk key).Rejects disk ↔
      hostKeyStatus russh (some path) disk host port key ≠ some .known ∧
        (hostKeyStatus russh (some path) disk host port key = some .unknown →
          handler.takesUnknown russh host port key = false) := by
  unfold checkServerKey
  rw [hhost, hport, hpath]
  dsimp only
  split <;> rename_i hstatus <;> rw [hstatus]
  · simp [HostKeyCheck.Rejects]
  · simp [HostKeyCheck.Rejects]
  · simp [HostKeyCheck.Rejects]
  · simp [decideUnknown_rejects_iff hpath]

end Policy

/-! ## Conflicting keys -/

/-- No reader recognises the entries for the endpoint: each of them holds a readable
key of another algorithm, and none names the endpoint in plain text. -/
def Overlooked (russh : RusshKeys Key)
    (lineKey : String → UInt16 → List Char → Option (Except String Key)) (content : ByteArray)
    (host : String) (port : UInt16) (key : Key) : Prop :=
  ∃ text, String.fromUTF8? content = some text ∧
    (∀ entry ∈ entries lineKey text host port,
      ∃ k, entry = .ok k ∧ russh.algorithm k ≠ russh.algorithm key) ∧
    knownHostsContainsEndpoint (some content) host port = false

/-- Bytes that are a text are the bytes of that text. -/
theorem toUTF8_of_fromUTF8? {bytes : ByteArray} {text : String}
    (h : String.fromUTF8? bytes = some text) : bytes = text.toUTF8 := by
  unfold String.fromUTF8? at h
  split at h
  · exact (Option.some.inj h) ▸ rfl
  · simp at h

section Conflict

variable [DecidableEq Key] {russh : RusshKeys Key}
  {lineKey : String → UInt16 → List Char → Option (Except String Key)}
  {disk : Disk} {path host : String} {port : UInt16} {content : ByteArray} {key : Key}

/-- russh and the scan together make the key unknown exactly when they overlook every
entry. -/
theorem hostKeyStatus_eq_unknown_iff_overlooked (hreads : ReadsKnownHosts russh lineKey)
    (hcontent : disk path = some content) :
    hostKeyStatus russh (some path) disk host port key = some .unknown ↔
      Overlooked russh lineKey content host port key := by
  rw [hostKeyStatus_eq_unknown_iff, hcontent]
  cases htext : String.fromUTF8? content with
  | none =>
      rcases hreads.notText content host port key htext with ⟨message, herror⟩
      simp [herror, Overlooked, htext]
  | some text =>
      have hcheck := hreads.text text host port key
      rw [← toUTF8_of_fromUTF8? htext] at hcheck
      simp [hcheck, verdict_eq_ok_false_iff, Overlooked, htext]

/-- A key that no entry of a configured file holds is not known. -/
theorem hostKeyStatus_ne_known (hreads : ReadsKnownHosts russh lineKey)
    (hcontent : disk path = some content)
    (hnot : ∀ text, String.fromUTF8? content = some text →
      .ok key ∉ entries lineKey text host port) :
    hostKeyStatus russh (some path) disk host port key ≠ some .known := by
  rw [Ne, hostKeyStatus_eq_known_iff, hcontent]
  intro hknown
  cases htext : String.fromUTF8? content with
  | none =>
      rcases hreads.notText content host port key htext with ⟨message, herror⟩
      simp [herror] at hknown
  | some text =>
      rw [toUTF8_of_fromUTF8? htext, hreads.text] at hknown
      exact hnot text htext (mem_of_verdict_eq_ok_true hknown)

/-- When the configured file has entries for the endpoint but not the presented key,
the key is rejected and the file left alone, except when the entries are overlooked
and the handler takes unknown keys. -/
theorem conflicting_key_rejected_iff (hreads : ReadsKnownHosts russh lineKey)
    (faults : FileFaults) (handler : RusshClientHandler) (hhost : handler.host = some host)
    (hport : handler.port = some port) (hpath : handler.knownHostsPath = some path)
    (hcontent : disk path = some content)
    (hconflict : ∀ text, String.fromUTF8? content = some text →
      entries lineKey text host port ≠ [] ∧ .ok key ∉ entries lineKey text host port) :
    (checkServerKey russh faults handler disk key).Rejects disk ↔
      ¬ (Overlooked russh lineKey content host port key ∧
        handler.takesUnknown russh host port key = true) := by
  have hknown := hostKeyStatus_ne_known hreads hcontent fun text htext => (hconflict text htext).2
  rw [checkServerKey_rejects_iff hhost hport hpath,
    hostKeyStatus_eq_unknown_iff_overlooked hreads hcontent]
  simp [hknown]

end Conflict

/-- A file whose only entry for the endpoint has a hashed name and another algorithm. -/
def hashedDisk : Disk :=
  Disk.write (fun _ => none) "known_hosts" (SampleKey.file SampleKey.hashedName .ecdsa).toUTF8

theorem entries_hashedDisk :
    entries SampleKey.lineKey (SampleKey.file SampleKey.hashedName .ecdsa) "ssh.example.com" 22 =
      [.ok .ecdsa] := by
  rw [SampleKey.entries_file (by decide +kernel) (by decide +kernel), if_pos (by decide +kernel)]

theorem hashedDisk_overlooked :
    knownHostsContainsEndpoint (hashedDisk "known_hosts") "ssh.example.com" 22 = false := by
  rw [hashedDisk, Disk.write_self,
    SampleKey.knownHostsContainsEndpoint_file (by decide +kernel) (by decide +kernel)]
  decide +kernel

/-- The hashed entry is the reason why russh knows the host, yet a key of another
algorithm is accepted. -/
theorem hashed_entry_accepts_other_key :
    ReadsKnownHosts SampleKey.russh SampleKey.lineKey ∧
      entries SampleKey.lineKey (SampleKey.file SampleKey.hashedName .ecdsa)
        "ssh.example.com" 22 = [.ok .ecdsa] ∧
      (.ok .ed25519 : Except String SampleKey) ∉ [.ok .ecdsa] ∧
      ¬ (checkServerKey SampleKey.russh {}
          (handlerForHost .acceptUnknown (some "known_hosts") none "ssh.example.com" 22)
          hashedDisk .ed25519).Rejects hashedDisk := by
  refine ⟨SampleKey.readsKnownHosts, entries_hashedDisk, by decide, ?_⟩
  intro hrejects
  have hunknown : hostKeyStatus SampleKey.russh (some "known_hosts") hashedDisk
      "ssh.example.com" 22 .ed25519 = some .unknown := by
    rw [hostKeyStatus_eq_unknown_iff]
    refine ⟨?_, hashedDisk_overlooked⟩
    rw [hashedDisk, Disk.write_self, SampleKey.readsKnownHosts.text, entries_hashedDisk]
    decide
  have htaken := ((checkServerKey_rejects_iff rfl rfl rfl).mp hrejects).2 hunknown
  exact absurd htaken (by decide)

/-- The criterion at work: the default policy rejects the same key. -/
theorem hashed_entry_rejected_by_default :
    (checkServerKey SampleKey.russh {}
      (handlerForHost .rejectUnknown (some "known_hosts") none "ssh.example.com" 22)
      hashedDisk .ed25519).Rejects hashedDisk := by
  refine (conflicting_key_rejected_iff SampleKey.readsKnownHosts {} _ rfl rfl rfl rfl
    fun text htext => ?_).mpr fun h => absurd h.2 (by decide)
  obtain rfl : SampleKey.file SampleKey.hashedName .ecdsa = text := by
    rw [fromUTF8?_toUTF8] at htext
    exact Option.some.inj htext
  rw [entries_hashedDisk]
  decide

/-! ## The default file -/

section Default

variable {russh : RusshKeys Key} {defaultPath path host : String} {port : UInt16} {key : Key}
  {disk disk' : Disk}

theorem hostKeyStatus_default_eq_unknown (hdefault : ReadsDefaultFile russh defaultPath)
    (hcheck : russh.checkKnownHostsPath (disk defaultPath) host port key = .ok false) :
    hostKeyStatus russh none disk host port key = some .unknown := by
  simp [hostKeyStatus, hdefault disk host port key, hcheck]

/-- Without a configured file, an entry that russh alone overlooks stays overlooked. -/
theorem hostKeyStatus_default (hdefault : ReadsDefaultFile russh defaultPath)
    (hsame : disk' path = disk defaultPath) :
    hostKeyStatus russh none disk host port key =
      if russh.checkKnownHostsPath (disk defaultPath) host port key = .ok false ∧
          knownHostsContainsEndpoint (disk defaultPath) host port = true then some .unknown
      else hostKeyStatus russh (some path) disk' host port key := by
  simp only [hostKeyStatus, hsame, hdefault disk host port key]
  cases hcheck : russh.checkKnownHostsPath (disk defaultPath) host port key with
  | error error => cases error <;> simp
  | ok known =>
      cases known <;> cases knownHostsContainsEndpoint (disk defaultPath) host port <;> simp

/-- The answer of a handler that never stores, by the status of the key. -/
theorem checkServerKey_answer {faults : FileFaults} {policy : RusshHostKeyPolicy}
    (hpolicy : policy ≠ .trustOnFirstUse) {decision : Option HostKeyDecision}
    (hdecision : ∀ d ∈ decision, d.stores = false) (knownHostsPath : Option String) :
    (checkServerKey russh faults
        (handlerForHost policy knownHostsPath (decision.map fun d _ => d) host port)
        disk key).answer =
      .ok (hostKeyStatus russh knownHostsPath disk host port key = some .known ∨
        hostKeyStatus russh knownHostsPath disk host port key = some .unknown ∧
          (policy = .acceptUnknown ∨
            policy = .prompt ∧ decision.any HostKeyDecision.accepts = true) : Bool) := by
  simp only [checkServerKey, handlerForHost]
  cases hostKeyStatus russh knownHostsPath disk host port key with
  | none => simp
  | some status =>
      cases status with
      | known => simp
      | changed => simp
      | unknown =>
          cases policy with
          | rejectUnknown => simp [decideUnknown]
          | acceptUnknown => simp [decideUnknown]
          | trustOnFirstUse => exact absurd rfl hpolicy
          | prompt =>
              cases decision with
              | none => simp [decideUnknown]
              | some d =>
                  -- no decision of this kind stores the key
                  have hstores : d.stores = false := hdecision d rfl
                  cases haccepts : d.accepts <;> simp [decideUnknown, hstores, haccepts]

/-- A file read as the default file and as a configured file gives the same answer,
except when russh finds no key of the presented algorithm, the endpoint is named in
plain text, and unknown keys are accepted. -/
theorem default_file_agrees_iff (hdefault : ReadsDefaultFile russh defaultPath)
    (faults faults' : FileFaults) {policy : RusshHostKeyPolicy}
    (hpolicy : policy ≠ .trustOnFirstUse) (decision : Option HostKeyDecision)
    (hdecision : ∀ d ∈ decision, d.stores = false) (hsame : disk' path = disk defaultPath) :
    (checkServerKey russh faults
        (handlerForHost policy none (decision.map fun d _ => d) host port) disk key).answer =
      (checkServerKey russh faults'
        (handlerForHost policy (some path) (decision.map fun d _ => d) host port)
        disk' key).answer ↔
      ¬ (russh.checkKnownHostsPath (disk defaultPath) host port key = .ok false ∧
        knownHostsContainsEndpoint (disk defaultPath) host port = true ∧
        (policy = .acceptUnknown ∨
          policy = .prompt ∧ decision.any HostKeyDecision.accepts = true)) := by
  rw [checkServerKey_answer hpolicy hdecision, checkServerKey_answer hpolicy hdecision,
    hostKeyStatus_default hdefault hsame]
  -- the two readings differ only where the default file is read without the scan
  split
  · rename_i hlax
    have hchanged : hostKeyStatus russh (some path) disk' host port key = some .changed :=
      hostKeyStatus_eq_changed (by rw [hsame, hlax.1]) (by rw [hsame, hlax.2])
    simp [hchanged, hlax]
  · rename_i hstrict
    simp only [true_iff]
    exact fun h => hstrict ⟨h.1, h.2.1⟩

end Default

/-- A file whose only entry for the endpoint has a plain name and another algorithm. -/
def plainDisk (path : String) : Disk :=
  Disk.write (fun _ => none) path (SampleKey.file "ssh.example.com" .ecdsa).toUTF8

/-- The file has an entry of another algorithm only. -/
theorem plainDisk_check (path : String) :
    SampleKey.russh.checkKnownHostsPath (plainDisk path path) "ssh.example.com" 22 .ed25519 =
      .ok false := by
  rw [plainDisk, Disk.write_self, SampleKey.readsKnownHosts.text,
    SampleKey.entries_file (by decide) (by decide), if_pos (by decide)]
  decide

theorem plainDisk_contains (path : String) :
    knownHostsContainsEndpoint (plainDisk path path) "ssh.example.com" 22 = true := by
  rw [plainDisk, Disk.write_self,
    SampleKey.knownHostsContainsEndpoint_file (by decide) (by decide)]
  decide

theorem readsDefaultFile : ReadsDefaultFile SampleKey.russh SampleKey.defaultPath :=
  fun _ _ _ _ => rfl

/-- The configured file protects the host, the same content as default file does not. -/
theorem default_file_accepts_other_key :
    ReadsDefaultFile SampleKey.russh SampleKey.defaultPath ∧
      plainDisk "known_hosts" "known_hosts" =
        plainDisk SampleKey.defaultPath SampleKey.defaultPath ∧
      (checkServerKey SampleKey.russh {}
        (handlerForHost .acceptUnknown none none "ssh.example.com" 22)
        (plainDisk SampleKey.defaultPath) .ed25519).answer = .ok true ∧
      (checkServerKey SampleKey.russh {}
        (handlerForHost .acceptUnknown (some "known_hosts") none "ssh.example.com" 22)
        (plainDisk "known_hosts") .ed25519).answer = .ok false := by
  refine ⟨readsDefaultFile, by simp only [plainDisk, Disk.write_self], ?_, ?_⟩
  · have hstatus : hostKeyStatus SampleKey.russh none (plainDisk SampleKey.defaultPath)
        "ssh.example.com" 22 .ed25519 = some .unknown :=
      hostKeyStatus_default_eq_unknown readsDefaultFile (plainDisk_check SampleKey.defaultPath)
    rw [checkServerKey_of_unknown {}
      (handlerForHost .acceptUnknown none none "ssh.example.com" 22) rfl rfl hstatus]
    rfl
  · exact (checkServerKey_of_changed {} _ rfl rfl
      (hostKeyStatus_eq_changed (plainDisk_check _) (plainDisk_contains _))).1

/-- The two readings agree on a verifier that refuses. -/
theorem default_file_agrees_refusing :
    (checkServerKey SampleKey.russh {}
        (handlerForHost .prompt none (some fun _ => .reject) "ssh.example.com" 22)
        (plainDisk SampleKey.defaultPath) .ed25519).answer =
      (checkServerKey SampleKey.russh {}
        (handlerForHost .prompt (some "known_hosts") (some fun _ => .reject)
          "ssh.example.com" 22)
        (plainDisk "known_hosts") .ed25519).answer :=
  (default_file_agrees_iff readsDefaultFile {} {} (by decide) (some .reject) (by decide)
    (by simp only [plainDisk, Disk.write_self])).mpr fun h => absurd h.2.2 (by decide)

end Rssh
