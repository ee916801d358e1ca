import Mathlib.Data.List.Sort
import Rssh.Transfer.Sink

/-!
# The SCP source

`sendSource` resolves its target and sends it, a directory with everything below it. Every
entry is made canonical before it is looked at, so a link is followed, but only to a place
in the root. The depth that is left bounds the recursion.

* `transfer_contained`: sink and source together touch the root only, and what the source
  sends comes from there.
-/

namespace Rssh.Scp

open Posix

/-! ## The records -/

/-- `{}` of an unsigned number. -/
def decimal (n : Nat) : List Char := Nat.toDigits 10 n

/-- `{:04o}`. -/
def octal4 (mode : Nat) : List Char :=
  List.replicate (4 - (Nat.toDigits 8 mode).length) '0' ++ Nat.toDigits 8 mode

example : octal4 0o755 = "0755".toList := by decide

def timesLine (modified accessed : UInt64) : List UInt8 :=
  Text.encodeUtf8
    ('T' :: decimal modified.toNat ++ " 0 ".toList ++ decimal accessed.toNat ++ " 0\n".toList)

/-- A control line with its kind. -/
def controlLine (kind : Char) (mode size : Nat) (name : List Char) : List UInt8 :=
  Text.encodeUtf8 (kind :: octal4 mode ++ ' ' :: decimal size ++ ' ' :: name ++ ['\n'])

def directoryLine (mode : Nat) (name : List Char) : List UInt8 := controlLine 'D' mode 0 name

def fileLine (mode size : Nat) (name : List Char) : List UInt8 := controlLine 'C' mode size name

example : directoryLine 0o755 ['a'] = Text.encodeUtf8 "D0755 0 a\n".toList := by decide

def endLine : List UInt8 := [69, 10]

/-! ## Sending -/

variable {ν : Type} [DecidableEq ν]

omit [DecidableEq ν] in
def sendBytes (bytes : List UInt8) : ScpM ν Unit := onWire (·.send bytes)

omit [DecidableEq ν] in
/-- `send_times`, where times are asked for. `times` are the seconds since the epoch of the
last change and the last access. -/
def sendTimes (request : ScpRequest) (times : Loc ν → UInt64 × UInt64) (path : Loc ν) :
    ScpM ν Unit :=
  if request.preserveTimes then do
    sendBytes (timesLine (times path).1 (times path).2)
    expectAck
  else pure ()

/-- The entries of a directory, one after the other. -/
def sendEntries (N : OsNames ν) (root : Loc ν) (sendEntry : Loc ν → List Char → ScpM ν Unit)
    (path : Loc ν) : List ν → ScpM ν Unit
  | [] => pure ()
  | entry :: entries => do
      let childName ← orReject (N.toText entry)
      require (validateName childName = true)
      let child ← onFs (fsCall (observe (·.canonicalize (Loc.path (path ++ [entry])))))
      require (root <+: child)
      sendEntry child childName
      sendEntries N root sendEntry path entries

/-- A directory, whose entries are sent by `sendEntry`. -/
def sendDirectory (N : OsNames ν) (root : Loc ν) (request : ScpRequest)
    (sendEntry : Loc ν → List Char → ScpM ν Unit) (path : Loc ν) (name : List Char)
    (metadata : Metadata) : ScpM ν Unit := do
  require (request.recursive = true)
  sendBytes (directoryLine (metadata.mode &&& 0o777) name)
  expectAck
  let entries ← onFs (fsCall (syscall (·.readDir path.path)))
  sendEntries N root sendEntry path (entries.insertionSort fun a b => N.le a b = true)
  sendBytes endLine
  expectAck

/-- A regular file. -/
def sendFile (path : Loc ν) (name : List Char) (metadata : Metadata) : ScpM ν Unit := do
  require (metadata.size ≤ maxFileSize)
  sendBytes (fileLine (metadata.mode &&& 0o777) metadata.size name)
  expectAck
  let data ← onFs (fsCall (syscall (·.readFile path.path)))
  sendBytes data
  sendAck
  expectAck

/-- `send_entry`, with the number of levels that may still be entered. -/
def sendEntry (N : OsNames ν) (times : Loc ν → UInt64 × UInt64) (root : Loc ν)
    (request : ScpRequest) : Nat → Loc ν → List Char → ScpM ν Unit
  | 0, _, _ => reject
  | levels + 1, path, name => do
      require (root <+: path)
      let metadata ← onFs (fsCall (syscall (·.attributes false path.path)))
      require (metadata.kind ≠ .link)
      sendTimes request times path
      match metadata.kind with
      | .dir =>
          sendDirectory N root request (sendEntry N times root request levels) path name metadata
      | .file => sendFile path name metadata
      | .link | .special => reject

/-- `send_source`. -/
def sendSource (N : OsNames ν) (times : Loc ν → UInt64 × UInt64) (root : Loc ν)
    (request : ScpRequest) : ScpM ν Unit := do
  let target := RelPath.ofText N request.target
  require (validateRelative target = true)
  let path ← onFs (fsCall (observe (·.canonicalize (root.path ++ target.segs))))
  require (root <+: path)
  let found ← onFs (fsCall (observe (·.lookup false path.path)))
  require (found.2.isLink = false)
  let name ← orReject (path.getLast?.bind N.toText)
  require (validateName name = true)
  expectAck
  sendEntry N times root request maxRecursionDepth path name

/-! ## Containment -/

section Containment

variable {root : Loc ν} {fault : Nat → Option Fault} {fs : Fs ν}

omit [DecidableEq ν] in
/-- A call that changes nothing and touches only the root. -/
theorem reading_held {α : Type} {effect : Fs ν → CallEffect ν α} (h : Inside root (effect fs).2)
    (hsame : ∀ value fs', (effect fs).1 = .ok (value, fs') → fs' = fs) :
    Triple (fun w => Held root fault fs w.os) (onFs (fsCall (syscall effect)))
      (fun _ w => Held root fault fs w.os) (fun w => Contained root w.os) := by
  refine (onFs_triple (fsCall_triple (syscall_held h))).weaken (fun _ hw => hw) ?_
  rintro value w ⟨fs', hcall, hw⟩
  rwa [hsame value fs' hcall] at hw

omit [DecidableEq ν] in
theorem sendBytes_held (bytes : List UInt8) :
    Triple (fun w => Held root fault fs w.os) (sendBytes bytes) (fun _ w => Held root fault fs w.os)
      (fun w => Contained root w.os) :=
  onWire_triple (P := Held root fault fs) fun _ => Held.contained

omit [DecidableEq ν] in
theorem sendAck_held :
    Triple (fun w => Held root fault fs w.os) sendAck (fun _ w => Held root fault fs w.os)
      (fun w => Contained root w.os) :=
  sendAck_triple (P := Held root fault fs) fun _ => Held.contained

omit [DecidableEq ν] in
theorem expectAck_held :
    Triple (fun w => Held root fault fs w.os) expectAck (fun _ w => Held root fault fs w.os)
      (fun w => Contained root w.os) :=
  expectAck_triple (P := Held root fault fs) fun _ => Held.contained

omit [DecidableEq ν] in
/-- The times of an entry are read from nothing but their place. -/
theorem sendTimes_held (request : ScpRequest) (times : Loc ν → UInt64 × UInt64)
    (path : Loc ν) :
    Triple (fun w => Held root fault fs w.os) (sendTimes request times path)
      (fun _ w => Held root fault fs w.os) (fun w => Contained root w.os) := by
  unfold sendTimes
  split
  · exact (sendBytes_held _).bind fun _ => expectAck_held
  · exact .pure fun _ hw => hw

/-- A sender of entries that keeps to the root, for every place it may be given. -/
def SendsHeld (root : Loc ν) (fault : Nat → Option Fault) (fs : Fs ν)
    (sendEntry : Loc ν → List Char → ScpM ν Unit) : Prop :=
  ∀ path name, fs.Plain path →
    Triple (fun w => Held root fault fs w.os) (sendEntry path name)
      (fun _ w => Held root fault fs w.os) (fun w => Contained root w.os)

/-- The entries of a directory are sent one by one, each of them held. -/
theorem sendEntries_held (N : OsNames ν) {sendEntry : Loc ν → List Char → ScpM ν Unit}
    (hsend : SendsHeld root fault fs sendEntry) (path : Loc ν) (entries : List ν) :
    Triple (fun w => Held root fault fs w.os) (sendEntries N root sendEntry path entries)
      (fun _ w => Held root fault fs w.os) (fun w => Contained root w.os) := by
  induction entries with
  | nil => exact .pure fun _ hw => hw
  | cons entry entries ih =>
      refine (orReject_triple fun _ => Held.contained).bind fun childName => .of_fact fun _ => ?_
      refine (require_triple fun _ => Held.contained).bind fun _ => .of_fact fun _ => ?_
      refine (onFs_triple (fsCall_triple observe_held)).bind fun child => ?_
      refine .of_fact fun hchild => ?_
      refine (require_triple fun _ => Held.contained).bind fun _ => .of_fact fun _ => ?_
      exact (hsend child childName (Fs.canonicalize_ok hchild).1).bind fun _ => ih

/-- A directory is listed and its entries are sent, if its path is inside the root and no link. -/
theorem sendDirectory_held (N : OsNames ν) (request : ScpRequest)
    {sendEntry : Loc ν → List Char → ScpM ν Unit} (hsend : SendsHeld root fault fs sendEntry)
    {path : Loc ν} (hroot : root <+: path) (hplain : fs.Plain path) (name : List Char)
    (metadata : Metadata) :
    Triple (fun w => Held root fault fs w.os)
      (sendDirectory N root request sendEntry path name metadata)
      (fun _ w => Held root fault fs w.os) (fun w => Contained root w.os) := by
  refine (require_triple fun _ => Held.contained).bind fun _ => .of_fact fun _ => ?_
  refine (sendBytes_held _).bind fun _ => expectAck_held.bind fun _ => ?_
  have hlisted := Fs.readDir_inside hplain hroot
  refine (reading_held hlisted fun _ _ => Fs.readDir_same).bind fun entries => ?_
  refine (sendEntries_held N hsend path _).bind fun _ => ?_
  exact (sendBytes_held _).bind fun _ => expectAck_held

/-- A file is read inside the root. -/
theorem sendFile_held {path : Loc ν} (hroot : root <+: path) (hplain : fs.Plain path)
    (name : List Char) (metadata : Metadata) :
    Triple (fun w => Held root fault fs w.os) (sendFile path name metadata)
      (fun _ w => Held root fault fs w.os) (fun w => Contained root w.os) := by
  refine (require_triple fun _ => Held.contained).bind fun _ => .of_fact fun _ => ?_
  refine (sendBytes_held _).bind fun _ => expectAck_held.bind fun _ => ?_
  have hread := Fs.readFile_inside hplain hroot
  refine (reading_held hread fun _ _ => Fs.readFile_same).bind fun data => ?_
  exact (sendBytes_held _).bind fun _ => sendAck_held.bind fun _ => expectAck_held

/-- An entry is sent from the root, and so is everything below it. -/
theorem sendEntry_held (N : OsNames ν) (times : Loc ν → UInt64 × UInt64) (request : ScpRequest)
    (levels : Nat) : SendsHeld root fault fs (sendEntry N times root request levels) := by
  induction levels with
  | zero =>
      intro path name hplain
      exact reject_triple fun _ => Held.contained
  | succ levels ih =>
      intro path name hplain
      refine (require_triple fun _ => Held.contained).bind fun _ => .of_fact fun hroot => ?_
      have hlooked := Fs.attributes_inside hplain hroot false
      refine (reading_held hlooked fun _ _ => Fs.attributes_same).bind fun metadata => ?_
      refine (require_triple fun _ => Held.contained).bind fun _ => .of_fact fun _ => ?_
      refine (sendTimes_held request times path).bind fun _ => ?_
      cases metadata.kind with
      | dir => exact sendDirectory_held N request ih hroot hplain name metadata
      | file => exact sendFile_held hroot hplain name metadata
      | link | special => exact reject_triple fun _ => Held.contained

/-- Whatever is asked for, all that the source touches is inside the root. -/
theorem sendSource_held (N : OsNames ν) (times : Loc ν → UInt64 × UInt64)
    (request : ScpRequest) :
    Triple (fun w => Held root fault fs w.os) (sendSource N times root request)
      (fun _ w => Held root fault fs w.os) (fun w => Contained root w.os) := by
  refine (require_triple fun _ => Held.contained).bind fun _ => .of_fact fun _ => ?_
  refine (onFs_triple (fsCall_triple observe_held)).bind fun path => .of_fact fun hpath => ?_
  refine (require_triple fun _ => Held.contained).bind fun _ => .of_fact fun _ => ?_
  refine (onFs_triple (fsCall_triple observe_held)).bind fun found => .of_fact fun _ => ?_
  refine (require_triple fun _ => Held.contained).bind fun _ => .of_fact fun _ => ?_
  refine (orReject_triple fun _ => Held.contained).bind fun name => .of_fact fun _ => ?_
  refine (require_triple fun _ => Held.contained).bind fun _ => .of_fact fun _ => ?_
  refine expectAck_held.bind fun _ => ?_
  exact sendEntry_held N times request _ path name (Fs.canonicalize_ok hpath).1

end Containment

/-- For every tree with whatever links, every target, every stream of messages and every
fault of the system or the channel: all that a sink creates, writes or gives permissions, and
all whose listing, content or attributes a source sends, lies in the root. -/
theorem transfer_contained (N : OsNames ν) (times : Loc ν → UInt64 × UInt64) (root : Loc ν)
    (request : ScpRequest) (fs : Fs ν) (fault : Nat → Option Fault) (wire : ScpWire) :
    Inside root (finalWorld (receiveSink N root request ⟨wire, { fs, fault }⟩)).os.log ∧
      Inside root (finalWorld (sendSource N times root request ⟨wire, { fs, fault }⟩)).os.log := by
  have hstart : Held root fault fs ({ fs, fault } : Os ν) := ⟨rfl, rfl, inside_nil⟩
  have hsink : Triple (fun w => Held root fault fs w.os) (receiveSink N root request)
      (fun _ w => Contained root w.os) (fun w => Contained root w.os) :=
    receiveSink_contained N request
  have hsource : Triple (fun w => Held root fault fs w.os) (sendSource N times root request)
      (fun _ w => Contained root w.os) (fun w => Contained root w.os) :=
    (sendSource_held N times request).weaken (fun _ hw => hw) fun _ _ => Held.contained
  exact ⟨finalWorld_of_triple hsink hstart, finalWorld_of_triple hsource hstart⟩

end Rssh.Scp
