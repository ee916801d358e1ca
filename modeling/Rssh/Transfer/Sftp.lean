import Mathlib.Data.List.Sort
import Rssh.Lib.Files
import Rssh.Lib.Machine
import Rssh.Transfer.Path

/-!
# The SFTP session

`SandboxedSftpSession` on a file tree: every request, with the table of open handles between
them. A path of a request is resolved either to something that exists, by its canonical
path, or to a name for something new, by the canonical path of its parent.

* `requests_contained`: no request touches anything outside of the root, in every run without
  an `open` that creates a file through a link. Such a link is looked for without its trailing
  slash or `.`, and so a dangling one is taken for a free name: `open_creates_outside`.
-/

namespace Rssh.Sftp

open Posix

/-! ## The protocol -/

inductive StatusCode where
  | ok
  | eof
  | noSuchFile
  | permissionDenied
  | failure
  | badMessage
  | opUnsupported
deriving DecidableEq, Repr

structure OpenFlags where
  read : Bool := false
  write : Bool := false
  append : Bool := false
  create : Bool := false
  truncate : Bool := false
  exclude : Bool := false
deriving DecidableEq, Repr

/-- The attributes of a request that are looked at. -/
structure FileAttributes where
  size : Option UInt64 := none
  permissions : Option UInt32 := none
deriving DecidableEq, Repr

/-- An entry of a listing; the answer to `realpath` has no attributes. -/
structure SftpFile where
  filename : List Char
  attrs : Option Metadata
deriving DecidableEq, Repr

structure Status where
  id : UInt32
  statusCode : StatusCode
  errorMessage : List Char
  languageTag : List Char
deriving DecidableEq, Repr

inductive Reply where
  | version
  | status (status : Status)
  | handle (id : UInt32) (handle : List Char)
  | data (id : UInt32) (data : List UInt8)
  | attrs (id : UInt32) (attrs : Metadata)
  | name (id : UInt32) (files : List SftpFile)
deriving DecidableEq, Repr

inductive Request where
  | init
  | open_ (id : UInt32) (filename : List Char) (pflags : OpenFlags) (attrs : FileAttributes)
  | close (id : UInt32) (handle : List Char)
  | read (id : UInt32) (handle : List Char) (offset : UInt64) (len : UInt32)
  | write (id : UInt32) (handle : List Char) (offset : UInt64) (data : List UInt8)
  | lstat (id : UInt32) (path : List Char)
  | fstat (id : UInt32) (handle : List Char)
  | setstat (id : UInt32) (path : List Char) (attrs : FileAttributes)
  | fsetstat (id : UInt32) (handle : List Char) (attrs : FileAttributes)
  | opendir (id : UInt32) (path : List Char)
  | readdir (id : UInt32) (handle : List Char)
  | remove (id : UInt32) (filename : List Char)
  | mkdir (id : UInt32) (path : List Char) (attrs : FileAttributes)
  | rmdir (id : UInt32) (path : List Char)
  | realpath (id : UInt32) (path : List Char)
  | stat (id : UInt32) (path : List Char)
  | rename (id : UInt32) (oldpath newpath : List Char)
  | readlink (id : UInt32) (path : List Char)
  | symlink (id : UInt32) (linkpath targetpath : List Char)
  | extended (id : UInt32)
deriving DecidableEq, Repr

/-- `ok_status`. -/
def okStatus (id : UInt32) : Reply := .status ⟨id, .ok, "ok".toList, "en-US".toList⟩

/-- `map_io_status`. -/
def mapIoStatus : Errno → StatusCode
  | .notFound => .noSuchFile
  | .denied => .permissionDenied
  | .invalid => .badMessage
  | .notDirectory | .tooManyLinks | .exists_ | .isDirectory | .notEmpty | .other => .failure

def maxIoSize : Nat := 256 * 1024

/-! ## The session -/

inductive SftpHandle (ν : Type) where
  | file (file : OpenFile ν)
  | directory (entries : Option (List SftpFile))
deriving DecidableEq, Repr

/-- `SandboxedSftpSession`; its root is a parameter. -/
structure Session (ν : Type) where
  handles : List Char → Option (SftpHandle ν) := fun _ => none
  nextHandle : UInt64 := 0
  initialized : Bool := false

/-- The session on its system. -/
structure Server (ν : Type) where
  session : Session ν := {}
  os : Os ν

/-- A handler of requests. -/
abbrev SftpM (ν : Type) := EStateM StatusCode (Server ν)

/-- What the session gets from its libraries: names, the text shown for a name
(`to_string_lossy`), and the options that flags stand for. -/
structure Env (ν : Type) where
  names : OsNames ν
  lossy : ν → List Char
  options : OpenFlags → OpenOptions

variable {ν : Type}

/-- A call whose error is the request's. -/
def call {α : Type} (c : Sys ν α) : SftpM ν α := fun s =>
  match c s.os with
  | .ok value os => .ok value { s with os }
  | .error errno os => .error (mapIoStatus errno) { s with os }

/-- A call whose error is looked at. -/
def attempt {α : Type} (c : Sys ν α) : SftpM ν (Except Errno α) := fun s =>
  match c s.os with
  | .ok value os => .ok (.ok value) { s with os }
  | .error errno os => .ok (.error errno) { s with os }

def ensure (condition : Prop) [Decidable condition] (code : StatusCode) : SftpM ν Unit :=
  if condition then pure () else throw code

def orStatus {α : Type} (value : Option α) (code : StatusCode) : SftpM ν α :=
  match value with
  | some a => pure a
  | none => throw code

def ofExcept {α : Type} (value : Except StatusCode α) : SftpM ν α :=
  match value with
  | .ok a => pure a
  | .error code => throw code

def getSession : SftpM ν (Session ν) := fun s => .ok s.session s

def setSession (session : Session ν) : SftpM ν Unit := fun s => .ok () { s with session }

/-- The table with another entry for a token. -/
def Session.withHandle (session : Session ν) (token : List Char)
    (handle : Option (SftpHandle ν)) : Session ν :=
  { session with handles := Function.update session.handles token handle }

/-- `insert_handle`. -/
def insertHandle (handle : SftpHandle ν) : SftpM ν (List Char) := do
  let session ← getSession
  let token := "fixture-".toList ++ Nat.toDigits 10 session.nextHandle.toNat
  setSession
    ({ session with nextHandle := session.nextHandle + 1 }.withHandle token (some handle))
  pure token

/-- The open file of a handle. -/
def fileHandle (token : List Char) : SftpM ν (OpenFile ν) := do
  let session ← getSession
  match session.handles token with
  | some (.file file) => pure file
  | some (.directory _) => throw .failure
  | none => throw .failure

variable [DecidableEq ν]

/-! ## Paths -/

omit [DecidableEq ν] in
/-- `strip_prefix`, where its failure does not matter. -/
def stripPrefix (start text : List Char) : List Char :=
  if start <+: text then text.drop start.length else text

/-- `relative_path`: the text of the path in the root, which is empty for the root itself. -/
def relativePath (N : OsNames ν) (requested : List Char) : Except StatusCode (List Char) :=
  if '\x00' ∈ requested then .error .badMessage
  else if requested = ['.'] ∨ requested = ['/'] then .ok []
  else
    let requested := stripPrefix ['/'] (stripPrefix ['.', '/'] requested)
    if '\\' ∈ requested ∨ (Text.encodeUtf8 requested)[1]? = some 0x3A then .error .permissionDenied
    else if validateRelative (RelPath.ofText N requested) then .ok requested
    else .error .permissionDenied

/-- A path in the root, joined to it. -/
def joinRoot (N : OsNames ν) (root : Loc ν) (relative : List Char) : List (Seg ν) :=
  root.path ++ (RelPath.ofText N relative).segs

/-- `ensure_contained`. -/
def ensureContained (root resolved : Loc ν) : SftpM ν (Loc ν) := do
  ensure (root <+: resolved) .permissionDenied
  pure resolved

/-- `resolve_existing`. -/
def resolveExisting (N : OsNames ν) (root : Loc ν) (requested : List Char) : SftpM ν (Loc ν) := do
  let relative ← ofExcept (relativePath N requested)
  let resolved ← call (observe (·.canonicalize (joinRoot N root relative)))
  ensureContained root resolved

/-- The name for something new. -/
def freeName (root : Loc ν) (joined : List (Seg ν)) : SftpM ν (Loc ν) := do
  let parent ← orStatus (parent? joined) .permissionDenied
  let parent ← call (observe (·.canonicalize parent))
  let parent ← ensureContained root parent
  let fileName ← orStatus (fileName? joined) .permissionDenied
  pure (parent ++ [fileName])

/-- `resolve_for_create`. -/
def resolveForCreate (N : OsNames ν) (root : Loc ν) (requested : List Char) :
    SftpM ν (Loc ν) := do
  let relative ← ofExcept (relativePath N requested)
  ensure (relative ≠ []) .permissionDenied
  let joined := joinRoot N root relative
  match ← attempt (observe (·.lookup false joined)) with
  | .ok (_, .link _) => throw .permissionDenied
  | .ok (_, .file _) | .ok (_, .dir _) | .ok (_, .special) =>
      let resolved ← call (observe (·.canonicalize joined))
      ensureContained root resolved
  | .error errno =>
      if errno = .notFound then freeName root joined else throw (mapIoStatus errno)

/-- `Path::is_dir`. -/
def isDir (path : Loc ν) : SftpM ν Bool := do
  match ← attempt (observe (·.lookup true path.path)) with
  | .ok (_, obj) => pure obj.isDir
  | .error _ => pure false

/-! ## Attributes -/

omit [DecidableEq ν] in
/-- `apply_open_file_attributes`. -/
def applyOpenFileAttributes (file : OpenFile ν) (attrs : FileAttributes) : SftpM ν Unit :=
  match attrs.size with
  | some size => call (syscall (·.setLen file size.toNat))
  | none => pure ()

/-- `apply_path_permissions`. -/
def applyPathPermissions (path : Loc ν) (attrs : FileAttributes) : SftpM ν Unit :=
  match attrs.permissions with
  | some mode => call (syscall (·.setPermissions path.path (mode.toNat &&& 0o777)))
  | none => pure ()

/-- `apply_file_attributes`. -/
def applyFileAttributes (file : OpenFile ν) (path : Loc ν) (attrs : FileAttributes) :
    SftpM ν Unit := do
  applyOpenFileAttributes file attrs
  applyPathPermissions path attrs

/-! ## The requests -/

omit [DecidableEq ν] in
def init : SftpM ν Reply := do
  let session ← getSession
  ensure (session.initialized = false) .badMessage
  setSession { session with initialized := true }
  pure .version

/-- The path that is opened. -/
def resolveForOpen (E : Env ν) (root : Loc ν) (filename : List Char) (pflags : OpenFlags) :
    SftpM ν (Loc ν) :=
  if pflags.create then resolveForCreate E.names root filename
  else resolveExisting E.names root filename

/-- `open`. -/
def openRequest (E : Env ν) (root : Loc ν) (id : UInt32) (filename : List Char)
    (pflags : OpenFlags) (attrs : FileAttributes) : SftpM ν Reply := do
  let path ← resolveForOpen E root filename pflags
  let file ← call (syscall (·.openFile (E.options pflags) path.path))
  applyFileAttributes file path attrs
  let handle ← insertHandle (.file file)
  pure (.handle id handle)

omit [DecidableEq ν] in
def close (id : UInt32) (handle : List Char) : SftpM ν Reply := do
  let session ← getSession
  let _ ← orStatus (session.handles handle) .failure
  setSession (session.withHandle handle none)
  pure (okStatus id)

omit [DecidableEq ν] in
def read (id : UInt32) (handle : List Char) (offset : UInt64) (len : UInt32) : SftpM ν Reply := do
  let file ← fileHandle handle
  call (seek offset.toNat)
  let data ← call (syscall (·.readAt file offset.toNat (min len.toNat maxIoSize)))
  ensure (data ≠ []) .eof
  pure (.data id data)

omit [DecidableEq ν] in
/-- `write`; nothing is buffered that a flush could write. -/
def write (id : UInt32) (handle : List Char) (offset : UInt64) (data : List UInt8) :
    SftpM ν Reply := do
  ensure (data.length ≤ maxIoSize) .failure
  let file ← fileHandle handle
  call (seek offset.toNat)
  if data ≠ [] then
    call (writeAll file offset.toNat data)
  pure (okStatus id)

def stat (E : Env ν) (root : Loc ν) (id : UInt32) (path : List Char) : SftpM ν Reply := do
  let path ← resolveExisting E.names root path
  let metadata ← call (syscall (·.attributes true path.path))
  pure (.attrs id metadata)

def lstat (E : Env ν) (root : Loc ν) (id : UInt32) (path : List Char) : SftpM ν Reply :=
  stat E root id path

omit [DecidableEq ν] in
def fstat (id : UInt32) (handle : List Char) : SftpM ν Reply := do
  let file ← fileHandle handle
  let metadata ← call (syscall (·.fileAttributes file))
  pure (.attrs id metadata)

/-- The length that `setstat` sets. -/
def setPathLen (path : Loc ν) (attrs : FileAttributes) : SftpM ν Unit :=
  match attrs.size with
  | none => pure ()
  | some size => do
      let file ← call (syscall (·.openFile { write := true } path.path))
      call (syscall (·.setLen file size.toNat))

def setstat (E : Env ν) (root : Loc ν) (id : UInt32) (path : List Char) (attrs : FileAttributes) :
    SftpM ν Reply := do
  let path ← resolveExisting E.names root path
  if !(← isDir path) then
    setPathLen path attrs
  applyPathPermissions path attrs
  pure (okStatus id)

omit [DecidableEq ν] in
def fsetstat (id : UInt32) (handle : List Char) (attrs : FileAttributes) : SftpM ν Reply := do
  let file ← fileHandle handle
  applyOpenFileAttributes file attrs
  pure (okStatus id)

/-- The entries of a directory that are no links and lie in the root. -/
def listEntries (E : Env ν) (root path : Loc ν) : List ν → SftpM ν (List SftpFile)
  | [] => pure []
  | entry :: entries => do
      let canonical ← call (observe (·.canonicalize (path ++ [entry]).path))
      if root <+: canonical then
        let metadata ← call (syscall (·.attributes false (path ++ [entry]).path))
        let files ← listEntries E root path entries
        if metadata.kind = .link then pure files
        else pure (⟨E.lossy entry, some metadata⟩ :: files)
      else listEntries E root path entries

def opendir (E : Env ν) (root : Loc ν) (id : UInt32) (path : List Char) : SftpM ν Reply := do
  let path ← resolveExisting E.names root path
  ensure ((← isDir path) = true) .noSuchFile
  let entries ← call (syscall (·.readDir path.path))
  let files ← listEntries E root path entries
  let files := files.insertionSort fun left right => textLe left.filename right.filename = true
  let handle ← insertHandle (.directory (some files))
  pure (.handle id handle)

omit [DecidableEq ν] in
/-- `readdir`: a listing is given out once, also if it is empty. -/
def readdir (id : UInt32) (handle : List Char) : SftpM ν Reply := do
  let session ← getSession
  match session.handles handle with
  | some (.directory entries) =>
      setSession (session.withHandle handle (some (.directory none)))
      let files ← orStatus entries .eof
      ensure (files ≠ []) .eof
      pure (.name id files)
  | some (.file _) => throw .failure
  | none => throw .failure

def remove (E : Env ν) (root : Loc ν) (id : UInt32) (filename : List Char) : SftpM ν Reply := do
  let path ← resolveExisting E.names root filename
  ensure ((← isDir path) = false) .permissionDenied
  call (syscall (·.removeFile path.path))
  pure (okStatus id)

def mkdir (E : Env ν) (root : Loc ν) (id : UInt32) (path : List Char) (attrs : FileAttributes) :
    SftpM ν Reply := do
  let path ← resolveForCreate E.names root path
  call (syscall (·.createDir path.path))
  applyPathPermissions path attrs
  pure (okStatus id)

def rmdir (E : Env ν) (root : Loc ν) (id : UInt32) (path : List Char) : SftpM ν Reply := do
  let path ← resolveExisting E.names root path
  ensure (path ≠ root) .permissionDenied
  call (syscall (·.removeDir path.path))
  pure (okStatus id)

def realpath (E : Env ν) (root : Loc ν) (id : UInt32) (path : List Char) : SftpM ν Reply := do
  let relative ← ofExcept (relativePath E.names path)
  let resolved ← resolveExisting E.names root path
  ensure (root <+: resolved) .permissionDenied
  let virtualPath := '/' :: relative.map fun c => if c = '\\' then '/' else c
  pure (.name id [⟨virtualPath, none⟩])

/-- `rename`. -/
def renameRequest (E : Env ν) (root : Loc ν) (id : UInt32) (oldpath newpath : List Char) :
    SftpM ν Reply := do
  let oldpath ← resolveExisting E.names root oldpath
  let newpath ← resolveForCreate E.names root newpath
  call (syscall (·.rename oldpath.path newpath.path))
  pure (okStatus id)

/-- `unimplemented`: what a request without a handler is answered. -/
def unimplemented : StatusCode := .opUnsupported

def handle (E : Env ν) (root : Loc ν) : Request → SftpM ν Reply
  | .init => init
  | .open_ id filename pflags attrs => openRequest E root id filename pflags attrs
  | .close id handle => close id handle
  | .read id handle offset len => read id handle offset len
  | .write id handle offset data => write id handle offset data
  | .lstat id path => lstat E root id path
  | .fstat id handle => fstat id handle
  | .setstat id path attrs => setstat E root id path attrs
  | .fsetstat id handle attrs => fsetstat id handle attrs
  | .opendir id path => opendir E root id path
  | .readdir id handle => readdir id handle
  | .remove id filename => remove E root id filename
  | .mkdir id path attrs => mkdir E root id path attrs
  | .rmdir id path => rmdir E root id path
  | .realpath id path => realpath E root id path
  | .stat id path => stat E root id path
  | .rename id oldpath newpath => renameRequest E root id oldpath newpath
  | .readlink _ _ => throw .permissionDenied
  | .symlink _ _ _ => throw .permissionDenied
  | .extended _ => throw unimplemented

omit [DecidableEq ν] in
/-- The server after a request, however it was answered. -/
def afterRequest {α : Type} : EStateM.Result StatusCode (Server ν) α → Server ν
  | .ok _ s => s
  | .error _ s => s

/-- The requests of a session, one after the other. -/
def machine (E : Env ν) (root : Loc ν) : Machine (Server ν) Request where
  step s request := some (afterRequest (handle E root request s))

/-! ## Containment -/

section Containment

omit [DecidableEq ν] in
/-- Every open file is in the root. -/
def SafeHandles (root : Loc ν) (session : Session ν) : Prop :=
  ∀ token file, session.handles token = some (.file file) → root <+: file.loc

/-- The tree and the faults to come are these; all that was touched and all that is open is in
the root. -/
structure Kept (root : Loc ν) (fault : Nat → Option Fault) (fs : Fs ν) (s : Server ν) : Prop where
  os : Held root fault fs s.os
  handles : SafeHandles root s.session

/-- All that was touched and all that is open is in the root. -/
structure Sound (root : Loc ν) (s : Server ν) : Prop where
  log : Inside root s.os.log
  handles : SafeHandles root s.session

variable {E : Env ν} {root : Loc ν} {fault : Nat → Option Fault} {fs : Fs ν}

section Rules

omit [DecidableEq ν]

theorem Kept.sound {s : Server ν} (h : Kept root fault fs s) : Sound root s :=
  ⟨h.os.contained, h.handles⟩

variable {α : Type}

theorem throw_kept {code : StatusCode} {Q : α → Server ν → Prop} :
    Triple (Kept root fault fs) (throw code : SftpM ν α) Q (Sound root) :=
  Triple.throw fun _ => Kept.sound

/-- A check changes nothing; behind it, its condition holds. -/
theorem ensure_kept {condition : Prop} [Decidable condition] {code : StatusCode} :
    Triple (Kept root fault fs) (ensure condition code)
      (fun _ s => condition ∧ Kept root fault fs s) (Sound root) := by
  intro s hs
  by_cases h : condition
  · rw [ensure, if_pos h]
    exact ⟨h, hs⟩
  · rw [ensure, if_neg h]
    exact hs.sound

/-- A value that has to be there changes nothing; behind it, it is there. -/
theorem orStatus_kept {value : Option α} {code : StatusCode} :
    Triple (Kept root fault fs) (orStatus value code)
      (fun a s => value = some a ∧ Kept root fault fs s) (Sound root) := by
  intro s hs
  cases value with
  | some a => exact ⟨rfl, hs⟩
  | none => exact hs.sound

theorem ofExcept_kept {value : Except StatusCode α} :
    Triple (Kept root fault fs) (ofExcept value)
      (fun a s => value = .ok a ∧ Kept root fault fs s) (Sound root) := by
  intro s hs
  cases value with
  | ok a => exact ⟨rfl, hs⟩
  | error code => exact hs.sound

/-- A call that keeps the tree inside the root keeps the server, whether it fails or not. -/
theorem call_kept {c : Sys ν α} {Q : α → Os ν → Prop}
    (h : Triple (Held root fault fs) c Q (Contained root)) :
    Triple (Kept root fault fs) (call c) (fun a s => Q a s.os ∧ SafeHandles root s.session)
      (Sound root) := by
  intro s hs
  have hcall := h s.os hs.os
  simp only [call]
  cases hrun : c s.os with
  | ok value os =>
      rw [hrun] at hcall
      exact ⟨hcall, hs.handles⟩
  | error errno os =>
      rw [hrun] at hcall
      exact ⟨hcall, hs.handles⟩

/-- A call that touches only the root. -/
theorem syscall_kept {effect : Fs ν → CallEffect ν α} (h : Inside root (effect fs).2) :
    Triple (Kept root fault fs) (call (syscall effect))
      (fun a s => ∃ fs', (effect fs).1 = .ok (a, fs') ∧ Kept root fault fs' s) (Sound root) := by
  refine (call_kept (syscall_held h)).weaken (fun _ hs => hs) ?_
  rintro a s ⟨⟨fs', hcall, hheld⟩, hhandles⟩
  exact ⟨fs', hcall, hheld, hhandles⟩

/-- `write_all` on an open handle of the root touches the file alone, however much of it is stored.
-/
theorem writeAll_kept {file : OpenFile ν} (hfile : root <+: file.loc) (offset : Nat)
    (bytes : List UInt8) :
    Triple (Kept root fault fs) (call (writeAll file offset bytes))
      (fun _ s => ∃ fs', Kept root fault fs' s) (Sound root) := by
  refine (call_kept (Fs.writeAll_held hfile offset bytes)).weaken (fun _ hs => hs) ?_
  rintro _ s ⟨⟨fs', -, hheld⟩, hhandles⟩
  exact ⟨fs', hheld, hhandles⟩

/-- A look at the tree answers what is there. -/
theorem observe_kept {look : Fs ν → Except Errno α} :
    Triple (Kept root fault fs) (call (observe look))
      (fun a s => look fs = .ok a ∧ Kept root fault fs s) (Sound root) := by
  refine (call_kept observe_held).weaken (fun _ hs => hs) ?_
  rintro a s ⟨⟨hlook, hheld⟩, hhandles⟩
  exact ⟨hlook, hheld, hhandles⟩

/-- A look that may fail answers what is there, or a fault. -/
theorem attempt_kept {look : Fs ν → Except Errno α} :
    Triple (Kept root fault fs) (attempt (observe look))
      (fun result s => (result = look fs ∨ ∃ fault : Fault, result = .error fault.errno) ∧
        Kept root fault fs s)
      (Sound root) := by
  intro s hs
  rcases observe_cases look hs.os with ⟨os', hos', ⟨fault, hrun⟩ | hrun⟩
  · simp only [attempt, hrun]
    exact ⟨.inr ⟨fault, rfl⟩, hos', hs.handles⟩
  · cases hlook : look fs with
    | ok value =>
        simp only [attempt, hrun, hlook]
        exact ⟨.inl trivial, hos', hs.handles⟩
    | error errno =>
        simp only [attempt, hrun, hlook]
        exact ⟨.inl trivial, hos', hs.handles⟩

/-- All open files of the session are inside the root. -/
theorem getSession_kept :
    Triple (Kept root fault fs) getSession
      (fun session s => SafeHandles root session ∧ Kept root fault fs s) (Sound root) :=
  fun _ hs => ⟨hs.handles, hs⟩

theorem setSession_kept {session : Session ν} (h : SafeHandles root session) :
    Triple (Kept root fault fs) (setSession session) (fun _ => Kept root fault fs)
      (Sound root) :=
  fun _ hs => ⟨hs.os, h⟩

/-- Setting the handle of a file inside the root keeps the handles safe. -/
theorem SafeHandles.withHandle {session : Session ν} (h : SafeHandles root session)
    (token : List Char) (handle : Option (SftpHandle ν))
    (hhandle : ∀ file, handle = some (.file file) → root <+: file.loc) :
    SafeHandles root (session.withHandle token handle) := by
  intro token' file hfile
  simp only [Session.withHandle, Function.update_apply] at hfile
  split at hfile
  · exact hhandle file hfile
  · exact h token' file hfile

/-- An opened file of the root may go into the table. -/
theorem insertHandle_kept (handle : SftpHandle ν)
    (h : ∀ file, some handle = some (.file file) → root <+: file.loc) :
    Triple (Kept root fault fs) (insertHandle handle) (fun _ => Kept root fault fs)
      (Sound root) := by
  refine getSession_kept.bind fun session => .of_fact fun hsafe => ?_
  have hnext : SafeHandles root { session with nextHandle := session.nextHandle + 1 } := hsafe
  exact (setSession_kept (hnext.withHandle _ _ h)).bind fun _ => .pure fun _ hs => hs

/-- The file of a handle that is found is inside the root. -/
theorem fileHandle_kept {token : List Char} :
    Triple (Kept root fault fs) (fileHandle token)
      (fun file s => root <+: file.loc ∧ Kept root fault fs s) (Sound root) := by
  refine getSession_kept.bind fun session => .of_fact fun hsafe => ?_
  cases hhandle : session.handles token with
  | none => exact throw_kept
  | some handle =>
      cases handle with
      | directory => exact throw_kept
      | file file => exact .pure fun s hs => ⟨hsafe token file hhandle, hs⟩

end Rules

/-! ### Paths -/

/-- What passes `ensure_contained` is inside the root. -/
theorem ensureContained_kept {resolved : Loc ν} :
    Triple (Kept root fault fs) (ensureContained root resolved)
      (fun loc s => loc = resolved ∧ root <+: resolved ∧ Kept root fault fs s) (Sound root) := by
  refine ensure_kept.bind fun _ => .of_fact fun hroot => ?_
  exact .pure fun s hs => ⟨rfl, hroot, hs⟩

/-- An existing path is resolved to a plain one inside the root. -/
theorem resolveExisting_kept {N : OsNames ν} (requested : List Char) :
    Triple (Kept root fault fs) (resolveExisting N root requested)
      (fun loc s => (root <+: loc ∧ fs.Plain loc) ∧ Kept root fault fs s) (Sound root) := by
  refine ofExcept_kept.bind fun relative => .of_fact fun _ => ?_
  refine observe_kept.bind fun resolved => .of_fact fun hresolved => ?_
  refine ensureContained_kept.weaken (fun _ hs => hs) ?_
  rintro _ s ⟨rfl, hroot, hs⟩
  exact ⟨⟨hroot, (Fs.canonicalize_ok hresolved).1⟩, hs⟩

/-- The last name of a path is a link in the root that leads out of it, while the path as it is
spelled shows nothing. -/
def LeadsOut (N : OsNames ν) (root : Loc ν) (fs : Fs ν) (requested : List Char) : Prop :=
  ∃ relative parent dir name text,
    relativePath N requested = .ok relative ∧
      fs.lookup false (joinRoot N root relative) = .error .notFound ∧
      parent? (joinRoot N root relative) = some parent ∧ fs.canonicalize parent = .ok dir ∧
      root <+: dir ∧ fileName? (joinRoot N root relative) = some name ∧
      fs.get (dir ++ [name]) = some (.link text) ∧ ¬fs.Leads root true (dir ++ [name]).path

/-- A place for something new is in the root, unless it is a link that leads out of it and
is followed. -/
theorem resolveForCreate_kept {N : OsNames ν} (requested : List Char) :
    Triple (Kept root fault fs) (resolveForCreate N root requested)
      (fun loc s => (fs.Leads root false loc.path ∧
        (fs.Leads root true loc.path ∨ LeadsOut N root fs requested)) ∧ Kept root fault fs s)
      (Sound root) := by
  refine ofExcept_kept.bind fun relative => .of_fact fun hrelative => ?_
  refine ensure_kept.bind fun _ => .of_fact fun _ => ?_
  -- a name that exists: its canonical path has to be in the root, and is plain
  have hexisting : Triple (Kept root fault fs)
      (call (observe (·.canonicalize (joinRoot N root relative))) >>= ensureContained root)
      (fun loc s => (fs.Leads root false loc.path ∧
        (fs.Leads root true loc.path ∨ LeadsOut N root fs requested)) ∧ Kept root fault fs s)
      (Sound root) := by
    refine observe_kept.bind fun resolved => .of_fact fun hresolved => ?_
    refine ensureContained_kept.weaken (fun _ hs => hs) ?_
    rintro _ s ⟨rfl, hroot, hs⟩
    have hplain := (Fs.canonicalize_ok hresolved).1
    exact ⟨⟨hplain.leads hroot false, .inl (hplain.leads hroot true)⟩, hs⟩
  refine attempt_kept.bind fun result => .of_fact fun hresult => ?_
  rcases result with errno | ⟨_, obj⟩
  · by_cases herrno : errno = .notFound
    · subst herrno
      -- a fault is never the error of a missing name
      have hmissing : fs.lookup false (joinRoot N root relative) = .error .notFound := by
        rcases hresult with hlook | ⟨fault, hfault⟩
        · exact hlook.symm
        · cases fault <;> cases hfault
      simp only [if_true]
      refine orStatus_kept.bind fun parent => .of_fact fun hparent => ?_
      refine observe_kept.bind fun dir => .of_fact fun hdir => ?_
      refine ensureContained_kept.bind_eq (.of_fact fun hroot => ?_)
      refine orStatus_kept.bind fun name => .of_fact fun hname => ?_
      refine .pure fun s hs => ⟨?_, hs⟩
      rcases Fs.canonicalize_ok hdir with ⟨hplain, obj, hget⟩
      -- nothing stands at the name, so `open` can leave the parent through a dangling link alone
      rcases hplain.leads_child name hget hroot with ⟨hstays, hfollows | ⟨text, hlink⟩⟩
      · exact ⟨hstays, .inl hfollows⟩
      · refine ⟨hstays, or_iff_not_imp_left.mpr fun hout => ?_⟩
        exact ⟨relative, parent, dir, name, text, hrelative, hmissing, hparent, hdir, hroot,
          hname, hlink, hout⟩
    · simp only [herrno, if_false]
      exact throw_kept
  · cases obj with
    | link => exact throw_kept
    | file | dir | special => exact hexisting

/-! ### Calls that have to succeed -/

section Counted

variable {α : Type} {n : Nat} {P : Server ν → Prop}

/-- The faults are these, and so many calls have been made. -/
def Counted (fault : Nat → Option Fault) (n : Nat) (s : Server ν) : Prop :=
  s.os.fault = fault ∧ s.os.calls = n

omit [DecidableEq ν] in
/-- A check makes no call. -/
theorem ensure_same {condition : Prop} [Decidable condition] {code : StatusCode} :
    Triple P (ensure condition code) (fun _ => P) (fun _ => True) := by
  unfold ensure
  split
  · exact .pure fun _ hs => hs
  · exact .throw fun _ _ => trivial

omit [DecidableEq ν] in
theorem orStatus_same {value : Option α} {code : StatusCode} :
    Triple P (orStatus value code) (fun _ => P) (fun _ => True) := by
  cases value with
  | some a => exact .pure fun _ hs => hs
  | none => exact .throw fun _ _ => trivial

omit [DecidableEq ν] in
theorem ofExcept_same {value : Except StatusCode α} :
    Triple P (ofExcept value) (fun _ => P) (fun _ => True) := by
  cases value with
  | ok a => exact .pure fun _ hs => hs
  | error code => exact .throw fun _ _ => trivial

omit [DecidableEq ν] in
/-- A look is one call; it answers only where that call has no fault. -/
theorem observe_counted {look : Fs ν → Except Errno α} :
    Triple (Counted fault n) (call (observe look))
      (fun _ s => fault n = none ∧ Counted fault (n + 1) s) (fun _ => True) := by
  rintro s ⟨rfl, rfl⟩
  cases hrun : call (observe look) s with
  | error => trivial
  | ok value s' =>
      simp only [call] at hrun
      split at hrun
      · rename_i hlook
        obtain ⟨hcalm, -, rfl⟩ := observe_eq_ok_iff.mp hlook
        cases hrun
        exact ⟨hcalm, rfl, rfl⟩
      · cases hrun

omit [DecidableEq ν] in
/-- A call whose error is looked at shows the fault in place of what it would have seen. -/
theorem attempt_counted {look : Fs ν → Except Errno α} :
    Triple (Counted fault n) (attempt (observe look))
      (fun result s => (fault n = none ∨ ∃ f : Fault, result = .error f.errno) ∧
        Counted fault (n + 1) s)
      (fun _ => True) := by
  rintro s ⟨rfl, rfl⟩
  cases hfault : s.os.fault s.os.calls with
  | none =>
      simp only [attempt, observe, syscall, hfault]
      cases look s.os.fs with
      | ok value => exact ⟨.inl trivial, rfl, rfl⟩
      | error errno => exact ⟨.inl trivial, rfl, rfl⟩
  | some f =>
      simp only [attempt, observe, syscall, hfault]
      exact ⟨.inr ⟨f, rfl⟩, rfl, rfl⟩

theorem ensureContained_same {resolved : Loc ν} :
    Triple P (ensureContained root resolved) (fun _ => P) (fun _ => True) :=
  ensure_same.bind fun _ => .pure fun _ hs => hs

/-- A place for something new is only found by two calls that do not fail. -/
theorem resolveForCreate_counted {N : OsNames ν} (requested : List Char) :
    Triple (Counted fault n) (resolveForCreate N root requested)
      (fun _ _ => ∀ k < 2, fault (n + k) = none) (fun _ => True) := by
  refine ofExcept_same.bind fun relative => ensure_same.bind fun _ => ?_
  refine attempt_counted.bind fun result => .of_fact fun hresult => ?_
  -- both ways to an answer make a second call behind the first
  have hcalm : ∀ {program : SftpM ν (Loc ν)}, fault n = none →
      Triple (Counted fault (n + 1)) program (fun _ _ => fault (n + 1) = none) (fun _ => True) →
      Triple (Counted fault (n + 1)) program (fun _ _ => ∀ k < 2, fault (n + k) = none)
        (fun _ => True) := by
    intro program hfirst hprogram
    refine hprogram.weaken (fun _ hs => hs) fun _ _ hsecond k hk => ?_
    obtain rfl | rfl : k = 0 ∨ k = 1 := by omega
    · exact hfirst
    · exact hsecond
  rcases result with errno | ⟨_, obj⟩
  · by_cases herrno : errno = .notFound
    · subst herrno
      -- the first call has answered that the name is missing
      have hfirst : fault n = none := by
        rcases hresult with hfirst | ⟨f, hf⟩
        · exact hfirst
        · cases f <;> cases hf
      simp only [if_true]
      refine hcalm hfirst (orStatus_same.bind fun parent => ?_)
      refine observe_counted.bind fun dir => .of_fact fun hsecond => ?_
      refine ensureContained_same.bind fun _ => orStatus_same.bind fun name => ?_
      exact .pure fun _ _ => hsecond
    · simp only [herrno, if_false]
      exact .throw fun _ _ => trivial
  · -- the first call has answered with what is there
    have hfirst : fault n = none := hresult.resolve_right fun ⟨_, hf⟩ => nomatch hf
    have hexisting : Triple (Counted fault (n + 1))
        (call (observe (·.canonicalize (joinRoot N root relative))) >>= ensureContained root)
        (fun _ _ => fault (n + 1) = none) (fun _ => True) := by
      refine observe_counted.bind fun resolved => .of_fact fun hsecond => ?_
      exact ensureContained_same.weaken (fun _ hs => hs) fun _ _ _ => hsecond
    cases obj with
    | link => exact .throw fun _ _ => trivial
    | file | dir | special => exact hcalm hfirst hexisting

end Counted

/-- The question for a directory is a look. -/
theorem isDir_kept (path : Loc ν) :
    Triple (Kept root fault fs) (isDir path) (fun _ => Kept root fault fs) (Sound root) := by
  refine attempt_kept.bind fun result => .of_fact fun _ => ?_
  rcases result with errno | ⟨_, obj⟩
  · exact .pure fun _ hs => hs
  · exact .pure fun _ hs => hs

/-! ### Attributes -/

/-- A length that is set changes no path. -/
theorem applyOpenFileAttributes_kept {file : OpenFile ν} (hfile : root <+: file.loc)
    (attrs : FileAttributes) :
    Triple (Kept root fault fs) (applyOpenFileAttributes file attrs)
      (fun _ s => ∃ fs', (∀ loc, fs'.get loc = fs.get loc) ∧ Kept root fault fs' s)
      (Sound root) := by
  unfold applyOpenFileAttributes
  split
  · rename_i size _
    refine (syscall_kept (Fs.setLen_inside hfile size.toNat)).weaken (fun _ hs => hs) ?_
    rintro _ s ⟨fs', hcall, hs⟩
    exact ⟨fs', Fs.setLen_keeps hcall, hs⟩
  · exact .pure fun s hs => ⟨fs, fun _ => rfl, hs⟩

/-- Permissions are set where the path leads, which is inside the root. -/
theorem applyPathPermissions_kept {path : Loc ν} (hpath : fs.Leads root true path.path)
    (attrs : FileAttributes) :
    Triple (Kept root fault fs) (applyPathPermissions path attrs)
      (fun _ s => ∃ fs', Kept root fault fs' s) (Sound root) := by
  unfold applyPathPermissions
  split
  · refine (syscall_kept (Fs.setPermissions_leads hpath _)).weaken (fun _ hs => hs) ?_
    rintro _ s ⟨fs', -, hs⟩
    exact ⟨fs', hs⟩
  · exact .pure fun s hs => ⟨fs, hs⟩

/-- The attributes of a file that was just opened are set on the file and its path, both inside the
root. -/
theorem applyFileAttributes_kept {file : OpenFile ν} {path : Loc ν} (hfile : root <+: file.loc)
    (hpath : fs.Leads root true path.path) (attrs : FileAttributes) :
    Triple (Kept root fault fs) (applyFileAttributes file path attrs)
      (fun _ s => ∃ fs', Kept root fault fs' s) (Sound root) := by
  refine (applyOpenFileAttributes_kept hfile attrs).bind fun _ => ?_
  refine .of_exists fun fs₁ => .of_fact fun hsame => ?_
  exact applyPathPermissions_kept (Fs.leads_congr hsame hpath) attrs

/-! ### The requests -/

/-- The request leaves the session in the root. -/
def Keeps (root : Loc ν) (fault : Nat → Option Fault) (fs : Fs ν) (handler : SftpM ν Reply) :
    Prop :=
  Triple (Kept root fault fs) handler (fun _ => Sound root) (Sound root)

omit [DecidableEq ν] in
theorem pure_keeps {reply : Reply} : Keeps root fault fs (pure reply) :=
  .pure fun _ => Kept.sound

/-- An `open` that would create what a link out of the root leads to, on a system with these
faults that has done so many calls. -/
def CreatesOutside (E : Env ν) (root : Loc ν) (fault : Nat → Option Fault) (calls : Nat)
    (fs : Fs ν) (filename : List Char) (pflags : OpenFlags) : Prop :=
  pflags.create = true ∧ (E.options pflags).followsLinks = true ∧
    (∀ k < 2, fault (calls + k) = none) ∧ LeadsOut E.names root fs filename

/-- A path that is opened leads to the root, with its last link if that is followed. -/
theorem resolveForOpen_kept {filename : List Char} {pflags : OpenFlags} {calls : Nat}
    (h : ¬CreatesOutside E root fault calls fs filename pflags) :
    Triple (fun s => s.os.calls = calls ∧ Kept root fault fs s)
      (resolveForOpen E root filename pflags)
      (fun loc s => fs.Leads root (E.options pflags).followsLinks loc.path ∧
        Kept root fault fs s)
      (Sound root) := by
  rintro s ⟨rfl, hs⟩
  -- what is created is in the root, or the two calls before it have shown a link out of it
  by_cases hcreate : pflags.create = true
  · have hresolve : resolveForOpen E root filename pflags =
        resolveForCreate E.names root filename := if_pos hcreate
    have hkept := @resolveForCreate_kept _ _ root fault fs E.names filename s hs
    rw [hresolve]
    cases hrun : resolveForCreate E.names root filename s with
    | error code s' =>
        rw [hrun] at hkept
        exact hkept
    | ok loc s' =>
        rw [hrun] at hkept
        obtain ⟨⟨hstays, hfollows⟩, hs'⟩ := hkept
        refine ⟨?_, hs'⟩
        cases hlinks : (E.options pflags).followsLinks with
        | false => exact hstays
        | true =>
            have hcalm := @resolveForCreate_counted _ _ root fault s.os.calls E.names filename s
              ⟨hs.os.2.1, rfl⟩
            rw [hrun] at hcalm
            exact hfollows.resolve_right fun hout => h ⟨hcreate, hlinks, hcalm, hout⟩
  · have hresolve : resolveForOpen E root filename pflags =
        resolveExisting E.names root filename := if_neg hcreate
    rw [hresolve]
    refine (resolveExisting_kept filename).weaken (fun _ hs => hs) ?_ s hs
    rintro loc s ⟨⟨hroot, hplain⟩, hs⟩
    exact ⟨hplain.leads hroot _, hs⟩

/-- An `open` that creates nothing outside is contained; its first two calls decide where it
creates. -/
theorem openRequest_keeps {id : UInt32} {filename : List Char} {pflags : OpenFlags}
    {attrs : FileAttributes} {calls : Nat}
    (h : ¬CreatesOutside E root fault calls fs filename pflags) :
    Triple (fun s => s.os.calls = calls ∧ Kept root fault fs s)
      (openRequest E root id filename pflags attrs) (fun _ => Sound root) (Sound root) := by
  refine (resolveForOpen_kept h).bind fun path => .of_fact fun hpath => ?_
  rcases Fs.openFile_leads hpath with ⟨htouched, hopened⟩
  refine (syscall_kept htouched).bind fun file => .of_exists fun fs₁ => .of_fact fun hopen => ?_
  have hfile := hopened file fs₁ hopen
  have hpath₁ := Fs.openFile_keeps hpath hopen
  refine (applyFileAttributes_kept hfile hpath₁ attrs).bind fun _ => .of_exists fun fs₂ => ?_
  refine (insertHandle_kept _ fun _ heq => ?_).bind fun _ => pure_keeps
  cases heq
  exact hfile

section HandleRequests

omit [DecidableEq ν]

theorem init_keeps : Keeps root fault fs init := by
  refine getSession_kept.bind fun session => .of_fact fun hsafe => ?_
  refine ensure_kept.bind fun _ => .of_fact fun _ => ?_
  have hdone : SafeHandles root { session with initialized := true } := hsafe
  exact (setSession_kept hdone).bind fun _ => pure_keeps

/-- `close` makes no call. -/
theorem close_keeps {id : UInt32} {handle : List Char} :
    Keeps root fault fs (close id handle) := by
  refine getSession_kept.bind fun session => .of_fact fun hsafe => ?_
  refine orStatus_kept.bind fun _ => .of_fact fun _ => ?_
  exact (setSession_kept (hsafe.withHandle handle none fun _ => nofun)).bind fun _ => pure_keeps

/-- `read` keeps the server sound: the open file is inside the root. -/
theorem read_keeps {id : UInt32} {handle : List Char} {offset : UInt64} {len : UInt32} :
    Keeps root fault fs (read id handle offset len) := by
  refine fileHandle_kept.bind fun file => .of_fact fun hfile => ?_
  refine observe_kept.bind fun _ => .of_fact fun _ => ?_
  refine (syscall_kept (Fs.readAt_inside hfile _ _)).bind fun data => ?_
  refine .of_exists fun fs₁ => .of_fact fun _ => ?_
  exact ensure_kept.bind fun _ => .of_fact fun _ => pure_keeps

theorem write_keeps {id : UInt32} {handle : List Char} {offset : UInt64} {data : List UInt8} :
    Keeps root fault fs (write id handle offset data) := by
  refine ensure_kept.bind fun _ => .of_fact fun _ => ?_
  refine fileHandle_kept.bind fun file => .of_fact fun hfile => ?_
  refine observe_kept.bind fun _ => .of_fact fun _ => ?_
  split
  · exact (writeAll_kept hfile _ _).bind fun _ => .of_exists fun fs₁ => pure_keeps
  · exact pure_keeps

theorem fstat_keeps {id : UInt32} {handle : List Char} :
    Keeps root fault fs (fstat id handle) := by
  refine fileHandle_kept.bind fun file => .of_fact fun hfile => ?_
  refine (syscall_kept (Fs.fileAttributes_inside hfile)).bind fun metadata => ?_
  exact .of_exists fun fs₁ => .of_fact fun _ => pure_keeps

/-- `readdir` answers from the listing that `opendir` has made. -/
theorem readdir_keeps {id : UInt32} {handle : List Char} :
    Keeps root fault fs (readdir id handle) := by
  refine getSession_kept.bind fun session => .of_fact fun hsafe => ?_
  split
  · have hgiven := hsafe.withHandle handle (some (.directory none)) fun _ => nofun
    refine (setSession_kept hgiven).bind fun _ => ?_
    refine orStatus_kept.bind fun files => .of_fact fun _ => ?_
    exact ensure_kept.bind fun _ => .of_fact fun _ => pure_keeps
  · exact throw_kept
  · exact throw_kept

end HandleRequests

theorem fsetstat_keeps {id : UInt32} {handle : List Char} {attrs : FileAttributes} :
    Keeps root fault fs (fsetstat id handle attrs) := by
  refine fileHandle_kept.bind fun file => .of_fact fun hfile => ?_
  refine (applyOpenFileAttributes_kept hfile attrs).bind fun _ => ?_
  exact .of_exists fun fs₁ => .of_fact fun _ => pure_keeps

/-- `stat` and `lstat` resolve the path and look at it. -/
theorem stat_keeps {id : UInt32} {path : List Char} :
    Keeps root fault fs (stat E root id path) := by
  refine (resolveExisting_kept path).bind fun loc => .of_fact fun hloc => ?_
  refine (syscall_kept (Fs.attributes_inside hloc.2 hloc.1 true)).bind fun metadata => ?_
  exact .of_exists fun fs₁ => .of_fact fun _ => pure_keeps

/-- The length is set through an open of its own, which creates nothing. -/
theorem setPathLen_kept {path : Loc ν} (hpath : fs.Leads root true path.path)
    (attrs : FileAttributes) :
    Triple (Kept root fault fs) (setPathLen path attrs)
      (fun _ s => ∃ fs', fs'.Leads root true path.path ∧ Kept root fault fs' s) (Sound root) := by
  unfold setPathLen
  split
  · exact .pure fun s hs => ⟨fs, hpath, hs⟩
  · rename_i size _
    have hopens : Fs.Opens root (fs.openFile { write := true } path.path) :=
      Fs.openFile_leads hpath
    refine (syscall_kept hopens.1).bind fun file => .of_exists fun fs₁ => .of_fact fun hopen => ?_
    have hfile := hopens.2 file fs₁ hopen
    have hpath₁ := Fs.openFile_keeps hpath hopen
    refine (syscall_kept (Fs.setLen_inside hfile _)).weaken (fun _ hs => hs) ?_
    rintro _ s ⟨fs₂, hcut, hs⟩
    exact ⟨fs₂, Fs.leads_congr (Fs.setLen_keeps hcut) hpath₁, hs⟩

/-- `setstat` resolves the path once and uses it twice. -/
theorem setstat_keeps {id : UInt32} {path : List Char} {attrs : FileAttributes} :
    Keeps root fault fs (setstat E root id path attrs) := by
  refine (resolveExisting_kept path).bind fun loc => .of_fact fun hloc => ?_
  have hleads := hloc.2.leads hloc.1 true
  have hrest : ∀ fs₁ : Fs ν, fs₁.Leads root true loc.path →
      Keeps root fault fs₁ (applyPathPermissions loc attrs >>= fun _ => pure (okStatus id)) := by
    intro fs₁ hleads₁
    refine (applyPathPermissions_kept hleads₁ attrs).bind fun _ => ?_
    exact .of_exists fun fs₂ => pure_keeps
  refine (isDir_kept loc).bind fun isDirectory => ?_
  cases isDirectory with
  | true => exact hrest fs hleads
  | false =>
      refine (setPathLen_kept hleads attrs).bind fun _ => ?_
      exact .of_exists fun fs₁ => .of_fact fun hleads₁ => hrest fs₁ hleads₁

/-- The entries are looked at one by one below a directory in the root. -/
theorem listEntries_kept {path : Loc ν} (hsolid : fs.Solid path) (hroot : root <+: path)
    (entries : List ν) :
    Triple (Kept root fault fs) (listEntries E root path entries)
      (fun _ => Kept root fault fs) (Sound root) := by
  induction entries with
  | nil => exact .pure fun _ hs => hs
  | cons entry entries ih =>
      refine observe_kept.bind fun canonical => .of_fact fun _ => ?_
      split
      · refine (syscall_kept (Fs.attributes_leads (hsolid.leads hroot))).bind fun metadata => ?_
        refine .of_exists fun fs₁ => .of_fact fun hcall => ?_
        rw [Fs.attributes_same hcall]
        refine ih.bind fun files => ?_
        split
        · exact .pure fun _ hs => hs
        · exact .pure fun _ hs => hs
      · exact ih

/-- `opendir` lists a directory in the root. -/
theorem opendir_keeps {id : UInt32} {path : List Char} :
    Keeps root fault fs (opendir E root id path) := by
  refine (resolveExisting_kept path).bind fun loc => .of_fact fun hloc => ?_
  refine (isDir_kept loc).bind fun _ => ensure_kept.bind fun _ => .of_fact fun _ => ?_
  refine (syscall_kept (Fs.readDir_inside hloc.2 hloc.1)).bind fun entries => ?_
  refine .of_exists fun fs₁ => .of_fact fun hlisted => ?_
  rw [Fs.readDir_same hlisted]
  have hsolid := hloc.2.solid_of_readDir hlisted
  refine (listEntries_kept hsolid hloc.1 entries).bind fun files => ?_
  exact (insertHandle_kept (.directory _) fun _ => nofun).bind fun _ => pure_keeps

/-- `remove` takes the name itself, never what a link at it leads to. -/
theorem remove_keeps {id : UInt32} {filename : List Char} :
    Keeps root fault fs (remove E root id filename) := by
  refine (resolveExisting_kept filename).bind fun loc => .of_fact fun hloc => ?_
  refine (isDir_kept loc).bind fun _ => ensure_kept.bind fun _ => .of_fact fun _ => ?_
  have hleads := hloc.2.leads hloc.1 false
  refine (syscall_kept (Fs.removeFile_leads hleads)).bind fun _ => ?_
  exact .of_exists fun fs₁ => .of_fact fun _ => pure_keeps

theorem mkdir_keeps {id : UInt32} {path : List Char} {attrs : FileAttributes} :
    Keeps root fault fs (mkdir E root id path attrs) := by
  refine (resolveForCreate_kept path).bind fun loc => .of_fact fun hloc => ?_
  refine (syscall_kept (Fs.createDir_leads hloc.1)).bind fun _ => ?_
  refine .of_exists fun fs₁ => .of_fact fun hmade => ?_
  refine (applyPathPermissions_kept (Fs.createDir_keeps hloc.1 hmade) attrs).bind fun _ => ?_
  exact .of_exists fun fs₂ => pure_keeps

theorem rmdir_keeps {id : UInt32} {path : List Char} :
    Keeps root fault fs (rmdir E root id path) := by
  refine (resolveExisting_kept path).bind fun loc => .of_fact fun hloc => ?_
  refine ensure_kept.bind fun _ => .of_fact fun _ => ?_
  have hleads := hloc.2.leads hloc.1 false
  refine (syscall_kept (Fs.removeDir_leads hleads)).bind fun _ => ?_
  exact .of_exists fun fs₁ => .of_fact fun _ => pure_keeps

theorem realpath_keeps {id : UInt32} {path : List Char} :
    Keeps root fault fs (realpath E root id path) := by
  refine ofExcept_kept.bind fun relative => .of_fact fun _ => ?_
  refine (resolveExisting_kept path).bind fun loc => .of_fact fun _ => ?_
  exact ensure_kept.bind fun _ => .of_fact fun _ => pure_keeps

theorem renameRequest_keeps {id : UInt32} {oldpath newpath : List Char} :
    Keeps root fault fs (renameRequest E root id oldpath newpath) := by
  refine (resolveExisting_kept oldpath).bind fun old => .of_fact fun hold => ?_
  refine (resolveForCreate_kept newpath).bind fun new => .of_fact fun hnew => ?_
  refine (syscall_kept (Fs.rename_leads (hold.2.leads hold.1 false) hnew.1)).bind fun _ => ?_
  exact .of_exists fun fs₁ => .of_fact fun _ => pure_keeps

/-- The request is no `open` that would create what a link out of the root leads to. -/
def Harmless (E : Env ν) (root : Loc ν) (s : Server ν) : Request → Prop
  | .open_ _ filename pflags _ =>
      ¬CreatesOutside E root s.os.fault s.os.calls s.os.fs filename pflags
  | _ => True

omit [DecidableEq ν] in
/-- The calls before the request do not matter. -/
theorem Keeps.counted {handler : SftpM ν Reply} {calls : Nat} (h : Keeps root fault fs handler) :
    Triple (fun s => s.os.calls = calls ∧ Kept root fault fs s) handler (fun _ => Sound root)
      (Sound root) :=
  h.weaken (fun _ hs => hs.2) fun _ _ hs => hs

/-- One request, whatever it is. -/
theorem handle_keeps {s : Server ν} {request : Request} (h : Harmless E root s request) :
    Triple (fun t => t.os.calls = s.os.calls ∧ Kept root s.os.fault s.os.fs t)
      (handle E root request) (fun _ => Sound root) (Sound root) := by
  -- only `open` needs the condition of `Harmless`, and only it counts its calls
  cases request with
  | init => exact init_keeps.counted
  | open_ id filename pflags attrs => exact openRequest_keeps h
  | close => exact close_keeps.counted
  | read => exact read_keeps.counted
  | write => exact write_keeps.counted
  | lstat | stat => exact stat_keeps.counted
  | fstat => exact fstat_keeps.counted
  | setstat => exact setstat_keeps.counted
  | fsetstat => exact fsetstat_keeps.counted
  | opendir => exact opendir_keeps.counted
  | readdir => exact readdir_keeps.counted
  | remove => exact remove_keeps.counted
  | mkdir => exact mkdir_keeps.counted
  | rmdir => exact rmdir_keeps.counted
  | realpath => exact realpath_keeps.counted
  | rename => exact renameRequest_keeps.counted
  | readlink | symlink | extended => exact Keeps.counted throw_kept

/-- One request keeps the server sound. -/
theorem step_sound {s s' : Server ν} {request : Request} (h : Harmless E root s request)
    (hstep : (machine E root).step s request = some s') (hs : Sound root s) : Sound root s' := by
  cases hstep
  have hkept : Kept root s.os.fault s.os.fs s := ⟨⟨rfl, rfl, hs.log⟩, hs.handles⟩
  have hrun := handle_keeps h s ⟨rfl, hkept⟩
  cases hresult : handle E root request s with
  | ok reply s' =>
      rw [hresult] at hrun
      exact hrun
  | error code s' =>
      rw [hresult] at hrun
      exact hrun

/-- For every tree, every sequence of requests and every fault of the system: what has been
read, listed, created, written, renamed, removed or given permissions lies in the root, as
long as no request was an `open` that would create what a link out of the root leads to. -/
theorem requests_contained (E : Env ν) {root : Loc ν} {fs : Fs ν} {fault : Nat → Option Fault}
    {requests : List Request} {s : Server ν}
    (hharmless : (machine E root).AllSteps (Harmless E root) { os := { fs, fault } } requests)
    (hrun : (machine E root).run { os := { fs, fault } } requests = some s) :
    Inside root s.os.log := by
  have hstart : Sound root ({ os := { fs, fault } } : Server ν) := ⟨inside_nil, nofun⟩
  have hsound := Machine.run_invariant_of (fun _ _ _ => step_sound) hharmless hrun hstart
  exact hsound.log

end Containment

/-! ## A link out of the root -/

/-- Options as the flags name them. -/
def flagOptions (flags : OpenFlags) : OpenOptions where
  read := flags.read
  write := flags.write
  append := flags.append
  truncate := flags.truncate
  create := flags.create
  createNew := flags.exclude

def textEnv : Env (List Char) := ⟨textNames, id, flagOptions⟩

/-- In the root `r` the link `d` to `/x/n`, which is missing. -/
def danglingRoot : Fs (List Char) where
  entries := [([['r']], .dir 0o755), ([['x']], .dir 0o755),
    ([['r'], ['d']], .link ⟨true, [.name ['x'], .name ['n']]⟩)]
  inode _ := { mode := 0 }
  nextIno := 0

def createFlags : OpenFlags := { write := true, create := true }

/-- Opened by its own name the link is refused, and another name stays in the root. -/
theorem requests_contained_danglingRoot :
    ∃ s, (machine textEnv [['r']]).run { os := { fs := danglingRoot } }
        [.open_ 1 ['d'] createFlags {}, .open_ 2 ['f'] createFlags {}] = some s ∧
      s.os.fs.get [['r'], ['f']] = some (.file 0) ∧ Inside [['r']] s.os.log := by
  have hharmless : (machine textEnv [['r']]).AllSteps (Harmless textEnv [['r']])
      { os := { fs := danglingRoot } }
      [.open_ 1 ['d'] createFlags {}, .open_ 2 ['f'] createFlags {}] := by
    constructor
    · -- the link shows itself
      rintro ⟨-, -, -, relative, _, _, _, _, hrelative, hmissing, -⟩
      obtain rfl : ['d'] = relative := Except.ok.inj hrelative
      exact absurd hmissing (by decide +kernel)
    · rintro _ ⟨⟩
      refine ⟨?_, fun _ _ => trivial⟩
      -- nothing has the name
      rintro ⟨-, -, -, relative, parent, dir, name, text, hrelative, -, hparent, hdir, -, hname,
        hlink, -⟩
      obtain rfl : ['f'] = relative := Except.ok.inj hrelative
      obtain rfl : [Seg.name ['r']] = parent := Option.some.inj hparent
      obtain rfl : [['r']] = dir := Except.ok.inj hdir
      obtain rfl : ['f'] = name := Option.some.inj hname
      cases hlink
  exact ⟨_, rfl, by decide +kernel, requests_contained textEnv hharmless rfl⟩

/-- With a slash behind it the link is followed, and the file is created outside. -/
theorem open_creates_outside :
    ∃ s, (machine textEnv [['r']]).run { os := { fs := danglingRoot } }
        [.open_ 1 ['d', '/'] createFlags {}] = some s ∧
      danglingRoot.get [['x'], ['n']] = none ∧ s.os.fs.get [['x'], ['n']] = some (.file 0) ∧
      ¬Inside [['r']] s.os.log :=
  ⟨_, rfl, by decide +kernel, by decide +kernel, by decide +kernel⟩

end Rssh.Sftp
