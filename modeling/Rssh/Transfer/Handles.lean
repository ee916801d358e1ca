import Rssh.Transfer.Bytes
import Rssh.Transfer.Listing

/-!
# The table of handles

`insert_handle` numbers the tokens it issues, and the table goes from tokens to open files and
listings. What a token stands for is followed through every sequence of requests.

* `Effect` is what one request can do to the table, and `handle_effect` says that no handler does
  anything else.
* `handles_cases` is its consequence for a token that has been issued: only its own `close` and
  its own `readdir` touch it.
* `session_tokens` is the discipline of whole runs of fewer than 2^64 requests, for which the
  counter does not come round.
-/

namespace Rssh.Sftp

open Posix

/-! ## Tokens -/

/-- The token with a number. -/
def tokenOf (k : Nat) : List Char := "fixture-".toList ++ Nat.toDigits 10 k

/-- Different numbers give different tokens. -/
theorem tokenOf_injective : Function.Injective tokenOf := by
  intro j k h
  have hdigits : Nat.toDigits 10 j = Nat.toDigits 10 k := List.append_cancel_left h
  have hvalue : Nat.ofDigitChars 10 (Nat.toDigits 10 j) 0 = j := Nat.ofDigitChars_ten_toDigits
  rw [hdigits, Nat.ofDigitChars_ten_toDigits] at hvalue
  exact hvalue.symm

/-- The token that a request uses. -/
def Request.token? : Request → Option (List Char)
  | .close _ handle | .read _ handle _ _ | .write _ handle _ _ | .fstat _ handle
  | .fsetstat _ handle _ | .readdir _ handle => some handle
  | _ => none

/-- The token that a reply issues. -/
def Reply.issued : Reply → Option (List Char)
  | .handle _ token => some token
  | _ => none

/-- What a token stands for later on: an open file stays the same one, and a listing stays what
it was or has been given out. -/
inductive SftpHandle.Later {ν : Type} : SftpHandle ν → SftpHandle ν → Prop
  | same (handle : SftpHandle ν) : Later handle handle
  | givenOut (entries : Option (List SftpFile)) : Later (.directory entries) (.directory none)

variable {ν : Type}

theorem Session.withHandle_self (session : Session ν) (token : List Char)
    (handle : Option (SftpHandle ν)) : (session.withHandle token handle).handles token = handle :=
  Function.update_self ..

theorem Session.withHandle_of_ne (session : Session ν) {token other : List Char}
    (h : other ≠ token) (handle : Option (SftpHandle ν)) :
    (session.withHandle token handle).handles other = session.handles other :=
  Function.update_of_ne h ..

variable [DecidableEq ν]

/-- What `open` opens. -/
def openObject (E : Env ν) (root : Loc ν) (filename : List Char) (pflags : OpenFlags)
    (attrs : FileAttributes) : SftpM ν (SftpHandle ν) := do
  let path ← resolveForOpen E root filename pflags
  let file ← call (syscall (·.openFile (E.options pflags) path.path))
  applyFileAttributes file path attrs
  pure (.file file)

/-- What `opendir` lists. -/
def opendirObject (E : Env ν) (root : Loc ν) (path : List Char) : SftpM ν (SftpHandle ν) := do
  let path ← resolveExisting E.names root path
  ensure ((← isDir path) = true) .noSuchFile
  let entries ← call (syscall (·.readDir path.path))
  let files ← listEntries E root path entries
  pure (.directory
    (some (files.insertionSort fun left right => textLe left.filename right.filename = true)))

/-- The object that a request issues a token for. -/
inductive IssuedFor (E : Env ν) (root : Loc ν) (s : Server ν) : Request → SftpHandle ν → Prop
  | open_ {id : UInt32} {filename : List Char} {pflags : OpenFlags} {attrs : FileAttributes}
      {object : SftpHandle ν} {s' : Server ν}
      (h : openObject E root filename pflags attrs s = .ok object s') :
      IssuedFor E root s (.open_ id filename pflags attrs) object
  | opendir {id : UInt32} {path : List Char} {object : SftpHandle ν} {s' : Server ν}
      (h : opendirObject E root path s = .ok object s') :
      IssuedFor E root s (.opendir id path) object

/-! ## One request -/

/-- What a request can do to the table: nothing, issue the next token for what it opened, take
out the token it closes, or give out the listing of the token it reads. -/
inductive Effect (E : Env ν) (root : Loc ν) (s : Server ν) (request : Request) :
    Except StatusCode Reply → Session ν → Prop
  | quiet {answer : Except StatusCode Reply} {session : Session ν}
      (hhandles : session.handles = s.session.handles)
      (hnext : session.nextHandle = s.session.nextHandle)
      (hanswer : ∀ reply, answer = .ok reply → reply.issued = none) :
      Effect E root s request answer session
  | issue {id : UInt32} {object : SftpHandle ν} (h : IssuedFor E root s request object) :
      Effect E root s request (.ok (.handle id (tokenOf s.session.nextHandle.toNat)))
        ({ s.session with nextHandle := s.session.nextHandle + 1 }.withHandle
          (tokenOf s.session.nextHandle.toNat) (some object))
  | close {id : UInt32} {token : List Char} (hrequest : request = .close id token) :
      Effect E root s request (.ok (okStatus id)) (s.session.withHandle token none)
  | giveOut {id : UInt32} {token : List Char} {entries : Option (List SftpFile)}
      {answer : Except StatusCode Reply} (hrequest : request = .readdir id token)
      (hlisting : s.session.handles token = some (.directory entries))
      (hanswer : ∀ reply, answer = .ok reply → reply.issued = none) :
      Effect E root s request answer (s.session.withHandle token (some (.directory none)))

section Quiet

variable {E : Env ν} {root : Loc ν}

omit [DecidableEq ν]

variable {α β : Type}

/-- The program leaves the session alone. -/
def Quiet (x : SftpM ν α) : Prop :=
  ∀ session, Lasts (fun s : Server ν => s.session = session) x

namespace Quiet

/-- A computation that only answers. -/
theorem pure {a : α} : Quiet (Pure.pure a : SftpM ν α) := fun _ => Lasts.pure

theorem throw {code : StatusCode} : Quiet (MonadExcept.throw code : SftpM ν α) :=
  fun _ => Triple.throw fun _ h => h

/-- Steps that leave the session alone can be put one after another. -/
theorem bind {x : SftpM ν α} {f : α → SftpM ν β} (hx : Quiet x) (hf : ∀ a, Quiet (f a)) :
    Quiet (x >>= f) :=
  fun session => Lasts.bind (hx session) fun a => hf a session

theorem ensure {condition : Prop} [Decidable condition] {code : StatusCode} :
    Quiet (Sftp.ensure condition code : SftpM ν Unit) := by
  unfold Sftp.ensure
  split
  · exact pure
  · exact throw

theorem orStatus {value : Option α} {code : StatusCode} :
    Quiet (Sftp.orStatus value code : SftpM ν α) := by
  cases value with
  | some a => exact pure
  | none => exact throw

theorem ofExcept {value : Except StatusCode α} : Quiet (Sftp.ofExcept value : SftpM ν α) := by
  cases value with
  | ok a => exact pure
  | error code => exact throw

theorem getSession : Quiet (Sftp.getSession : SftpM ν (Session ν)) := fun _ _ hs => hs

/-- A system call changes the tree, not the session. -/
theorem call {c : Sys ν α} : Quiet (Sftp.call c) := by
  intro session s hs
  simp only [Sftp.call]
  cases c s.os with
  | ok value os => exact hs
  | error errno os => exact hs

theorem attempt {c : Sys ν α} : Quiet (Sftp.attempt c) := by
  intro session s hs
  simp only [Sftp.attempt]
  cases c s.os with
  | ok value os => exact hs
  | error errno os => exact hs

/-- A handle is looked up, not changed. -/
theorem fileHandle {token : List Char} : Quiet (Sftp.fileHandle token : SftpM ν (OpenFile ν)) := by
  refine getSession.bind fun session => ?_
  split
  · exact pure
  · exact throw
  · exact throw

/-- A quiet computation leaves the session as it was, also when it fails. -/
theorem session_eq {x : SftpM ν α} (hx : Quiet x) (s : Server ν) :
    (afterRequest (x s)).session = s.session := by
  have hlasts := hx s.session s rfl
  cases hrun : x s with
  | ok a s' =>
      rw [hrun] at hlasts
      exact hlasts
  | error code s' =>
      rw [hrun] at hlasts
      exact hlasts

end Quiet

/-- The handler leaves the session alone and issues no token. -/
def Mute (handler : SftpM ν Reply) : Prop :=
  ∀ session, Triple (fun s : Server ν => s.session = session) handler
    (fun reply s => reply.issued = none ∧ s.session = session) (fun s => s.session = session)

namespace Mute

theorem pure {reply : Reply} (h : reply.issued = none) : Mute (Pure.pure reply : SftpM ν Reply) :=
  fun _ => Triple.pure fun _ hs => ⟨h, hs⟩

theorem throw {code : StatusCode} : Mute (MonadExcept.throw code : SftpM ν Reply) :=
  fun _ => Triple.throw fun _ hs => hs

theorem bind {x : SftpM ν α} {f : α → SftpM ν Reply} (hx : Quiet x) (hf : ∀ a, Mute (f a)) :
    Mute (x >>= f) :=
  fun session => Triple.bind (hx session) fun a => hf a session

end Mute

/-- `read` issues no handle. -/
theorem read_mute {id : UInt32} {handle : List Char} {offset : UInt64} {len : UInt32} :
    Mute (read id handle offset len : SftpM ν Reply) := by
  refine .bind .fileHandle fun file => .bind .call fun _ => .bind .call fun data => ?_
  exact .bind .ensure fun _ => .pure rfl

theorem write_mute {id : UInt32} {handle : List Char} {offset : UInt64} {data : List UInt8} :
    Mute (write id handle offset data : SftpM ν Reply) := by
  refine .bind .ensure fun _ => .bind .fileHandle fun file => .bind .call fun _ => ?_
  split
  · exact .bind .call fun _ => .pure rfl
  · exact .pure rfl

theorem fstat_mute {id : UInt32} {handle : List Char} :
    Mute (fstat id handle : SftpM ν Reply) :=
  .bind .fileHandle fun _ => .bind .call fun _ => .pure rfl

theorem applyOpenFileAttributes_quiet {file : OpenFile ν} {attrs : FileAttributes} :
    Quiet (applyOpenFileAttributes file attrs) := by
  unfold applyOpenFileAttributes
  split
  · exact .call
  · exact .pure

theorem fsetstat_mute {id : UInt32} {handle : List Char} {attrs : FileAttributes} :
    Mute (fsetstat id handle attrs : SftpM ν Reply) :=
  .bind .fileHandle fun _ => .bind applyOpenFileAttributes_quiet fun _ => .pure rfl

end Quiet

section Paths

variable {E : Env ν} {root : Loc ν}

theorem ensureContained_quiet {resolved : Loc ν} : Quiet (ensureContained root resolved) :=
  .bind .ensure fun _ => .pure

theorem resolveExisting_quiet {N : OsNames ν} {requested : List Char} :
    Quiet (resolveExisting N root requested) :=
  .bind .ofExcept fun _ => .bind .call fun _ => ensureContained_quiet

/-- Paths are resolved by calls and checks alone. -/
theorem resolveForCreate_quiet {N : OsNames ν} {requested : List Char} :
    Quiet (resolveForCreate N root requested) := by
  refine .bind .ofExcept fun relative => .bind .ensure fun _ => .bind .attempt fun result => ?_
  have hexisting : Quiet
      (call (observe (·.canonicalize (joinRoot N root relative))) >>= ensureContained root) :=
    .bind .call fun _ => ensureContained_quiet
  rcases result with errno | ⟨_, obj⟩
  · by_cases herrno : errno = .notFound
    · simp only [herrno, if_true]
      refine .bind .orStatus fun parent => .bind .call fun dir => ?_
      exact .bind ensureContained_quiet fun _ => .bind .orStatus fun _ => .pure
    · simp only [herrno, if_false]
      exact .throw
  · cases obj with
    | link => exact .throw
    | file | dir | special => exact hexisting

theorem isDir_quiet {path : Loc ν} : Quiet (isDir path) := by
  refine .bind .attempt fun result => ?_
  split
  · exact .pure
  · exact .pure

theorem applyPathPermissions_quiet {path : Loc ν} {attrs : FileAttributes} :
    Quiet (applyPathPermissions path attrs) := by
  unfold applyPathPermissions
  split
  · exact .call
  · exact .pure

theorem stat_mute {id : UInt32} {path : List Char} : Mute (stat E root id path) :=
  .bind resolveExisting_quiet fun _ => .bind .call fun _ => .pure rfl

theorem setPathLen_quiet {path : Loc ν} {attrs : FileAttributes} :
    Quiet (setPathLen path attrs) := by
  unfold setPathLen
  split
  · exact .pure
  · exact .bind .call fun _ => .call

theorem setstat_mute {id : UInt32} {path : List Char} {attrs : FileAttributes} :
    Mute (setstat E root id path attrs) := by
  refine .bind resolveExisting_quiet fun loc => .bind isDir_quiet fun isDirectory => ?_
  split
  · refine .bind setPathLen_quiet fun _ => ?_
    exact .bind applyPathPermissions_quiet fun _ => .pure rfl
  · exact .bind applyPathPermissions_quiet fun _ => .pure rfl

theorem listEntries_quiet {path : Loc ν} (entries : List ν) :
    Quiet (listEntries E root path entries) := by
  induction entries with
  | nil => exact .pure
  | cons entry entries ih =>
      refine .bind .call fun canonical => ?_
      split
      · refine .bind .call fun metadata => .bind ih fun files => ?_
        split
        · exact .pure
        · exact .pure
      · exact ih

theorem remove_mute {id : UInt32} {filename : List Char} : Mute (remove E root id filename) := by
  refine .bind resolveExisting_quiet fun loc => .bind isDir_quiet fun _ => ?_
  exact .bind .ensure fun _ => .bind .call fun _ => .pure rfl

theorem mkdir_mute {id : UInt32} {path : List Char} {attrs : FileAttributes} :
    Mute (mkdir E root id path attrs) := by
  refine .bind resolveForCreate_quiet fun loc => .bind .call fun _ => ?_
  exact .bind applyPathPermissions_quiet fun _ => .pure rfl

theorem rmdir_mute {id : UInt32} {path : List Char} : Mute (rmdir E root id path) :=
  .bind resolveExisting_quiet fun _ => .bind .ensure fun _ => .bind .call fun _ => .pure rfl

theorem realpath_mute {id : UInt32} {path : List Char} : Mute (realpath E root id path) :=
  .bind .ofExcept fun _ => .bind resolveExisting_quiet fun _ => .bind .ensure fun _ => .pure rfl

theorem renameRequest_mute {id : UInt32} {oldpath newpath : List Char} :
    Mute (renameRequest E root id oldpath newpath) := by
  refine .bind resolveExisting_quiet fun _ => .bind resolveForCreate_quiet fun _ => ?_
  exact .bind .call fun _ => .pure rfl

/-- What is opened is not in the table yet. -/
theorem openObject_quiet {filename : List Char} {pflags : OpenFlags} {attrs : FileAttributes} :
    Quiet (openObject E root filename pflags attrs) := by
  have hresolve : Quiet (resolveForOpen E root filename pflags) := by
    unfold resolveForOpen
    split
    · exact resolveForCreate_quiet
    · exact resolveExisting_quiet
  refine hresolve.bind fun path => .bind .call fun file => ?_
  refine .bind ?_ fun _ => .pure
  exact .bind applyOpenFileAttributes_quiet fun _ => applyPathPermissions_quiet

theorem opendirObject_quiet {path : List Char} : Quiet (opendirObject E root path) := by
  refine .bind resolveExisting_quiet fun loc => .bind isDir_quiet fun _ => ?_
  refine .bind .ensure fun _ => .bind .call fun entries => ?_
  exact .bind (listEntries_quiet entries) fun _ => .pure

end Paths

section OneRequest

variable {E : Env ν} {root : Loc ν} {s : Server ν}

/-- A request that issues nothing and leaves the session alone. -/
theorem Mute.effect {request : Request} {handler : SftpM ν Reply} (h : Mute handler) :
    Effect E root s request (answerOf (handler s)) (afterRequest (handler s)).session := by
  have hmute := h s.session s rfl
  cases hrun : handler s with
  | ok reply s' =>
      rw [hrun] at hmute
      refine .quiet (congrArg _ hmute.2) (congrArg _ hmute.2) ?_
      intro reply' hreply
      cases hreply
      exact hmute.1
  | error code s' =>
      rw [hrun] at hmute
      exact .quiet (congrArg _ hmute) (congrArg _ hmute) nofun

/-- A token for what is opened. -/
def issueFor (id : UInt32) (opens : SftpM ν (SftpHandle ν)) : SftpM ν Reply :=
  opens >>= fun object => insertHandle object >>= fun token => pure (.handle id token)

/-- `open` is one of two requests that issue a handle; the other is `opendir`. -/
theorem openRequest_eq {id : UInt32} {filename : List Char} {pflags : OpenFlags}
    {attrs : FileAttributes} :
    openRequest E root id filename pflags attrs =
      issueFor id (openObject E root filename pflags attrs) := by
  simp only [openRequest, issueFor, openObject, bind_assoc, pure_bind]

theorem opendir_issues {id : UInt32} {path : List Char} :
    opendir E root id path = issueFor id (opendirObject E root path) := by
  simp only [opendir, issueFor, opendirObject, bind_assoc, pure_bind]

/-- A handle is issued for what was opened, under the token of the counter; if the opening fails, or
there is no token left, nothing is. -/
theorem issueFor_effect {request : Request} {id : UInt32} {opens : SftpM ν (SftpHandle ν)}
    (hquiet : Quiet opens)
    (hissued : ∀ object s', opens s = .ok object s' → IssuedFor E root s request object) :
    Effect E root s request (answerOf (issueFor id opens s))
      (afterRequest (issueFor id opens s)).session := by
  have hsession := hquiet.session_eq s
  cases hopens : opens s with
  | error code s' =>
      rw [hopens] at hsession
      rw [issueFor, bind_of_error hopens]
      exact .quiet (congrArg _ hsession) (congrArg _ hsession) nofun
  | ok object s' =>
      rw [hopens] at hsession
      have hsame : s'.session = s.session := hsession
      -- the number is read after the object was opened, and opening has not changed it
      rw [issueFor, bind_of_ok hopens]
      show Effect E root s request (.ok (.handle id (tokenOf s'.session.nextHandle.toNat)))
        ({ s'.session with nextHandle := s'.session.nextHandle + 1 }.withHandle
          (tokenOf s'.session.nextHandle.toNat) (some object))
      rw [hsame]
      exact .issue (hissued object s' hopens)

omit [DecidableEq ν] in
/-- `close` takes a handle of either kind out of the table. -/
theorem close_of_live {id : UInt32} {token : List Char} {object : SftpHandle ν}
    (h : s.session.handles token = some object) :
    close id token s = .ok (okStatus id) { s with session := s.session.withHandle token none } := by
  show (orStatus (s.session.handles token) .failure >>= fun _ =>
    setSession (s.session.withHandle token none) >>= fun _ => pure (okStatus id)) s = _
  rw [h]
  rfl

omit [DecidableEq ν] in
/-- A token that is not in the table cannot be closed. -/
theorem close_of_dead {id : UInt32} {token : List Char} (h : s.session.handles token = none) :
    close id token s = .error .failure s := by
  show (orStatus (s.session.handles token) .failure >>= fun _ =>
    setSession (s.session.withHandle token none) >>= fun _ => pure (okStatus id)) s = _
  rw [h]
  rfl

/-- `close` frees the token it was sent or fails without an effect. -/
theorem close_effect {id : UInt32} {token : List Char} :
    Effect E root s (.close id token) (answerOf (close id token s))
      (afterRequest (close id token s)).session := by
  cases hhandle : s.session.handles token with
  | some object =>
      rw [close_of_live hhandle]
      exact .close rfl
  | none =>
      rw [close_of_dead hhandle]
      exact .quiet rfl rfl nofun

omit [DecidableEq ν] in
/-- A token that is not in the table cannot be listed. -/
theorem readdir_of_dead {id : UInt32} {token : List Char} (h : s.session.handles token = none) :
    readdir id token s = .error .failure s := by
  have hsession : (getSession : SftpM ν (Session ν)) s = .ok s.session s := rfl
  rw [readdir, bind_of_ok hsession]
  simp only [h]
  rfl

omit [DecidableEq ν] in
/-- The handle of a file cannot be listed. -/
theorem readdir_of_file {id : UInt32} {token : List Char} {file : OpenFile ν}
    (h : s.session.handles token = some (.file file)) :
    readdir id token s = .error .failure s := by
  have hsession : (getSession : SftpM ν (Session ν)) s = .ok s.session s := rfl
  rw [readdir, bind_of_ok hsession]
  simp only [h]
  rfl

/-- The first `readdir` gives out the whole listing, each later one its end. -/
theorem readdir_effect {id : UInt32} {token : List Char} :
    Effect E root s (.readdir id token) (answerOf (readdir id token s))
      (afterRequest (readdir id token s)).session := by
  cases hhandle : s.session.handles token with
  | none =>
      rw [readdir_of_dead hhandle]
      exact Mute.throw.effect
  | some object =>
      cases object with
      | file file =>
          rw [readdir_of_file hhandle]
          exact Mute.throw.effect
      | directory entries =>
          rw [readdir_directory hhandle]
          split
          · exact .giveOut rfl hhandle nofun
          · exact .giveOut rfl hhandle fun reply hreply => by cases hreply; rfl

/-- `init` starts anew only where nothing was opened. -/
theorem init_effect :
    Effect E root s .init (answerOf (init s)) (afterRequest (init s)).session := by
  have hrun : init s = (ensure (s.session.initialized = false) .badMessage >>= fun _ =>
      setSession { s.session with initialized := true } >>= fun _ => pure .version) s := rfl
  cases hinit : s.session.initialized with
  | false =>
      rw [hrun, hinit]
      exact .quiet rfl rfl fun reply hreply => by cases hreply; rfl
  | true =>
      rw [hrun, hinit]
      exact .quiet rfl rfl nofun

/-- No handler does anything else to the table. -/
theorem handle_effect (E : Env ν) (root : Loc ν) (s : Server ν) (request : Request) :
    Effect E root s request (answerOf (handle E root request s))
      (afterRequest (handle E root request s)).session := by
  -- each request has one of the effects: `open` and `opendir` issue, `close` frees, `readdir` gives
  -- out a listing, and all others leave the session as it is
  cases request with
  | init => exact init_effect
  | open_ id filename pflags attrs =>
      rw [handle, openRequest_eq]
      exact issueFor_effect openObject_quiet fun _ _ h => .open_ h
  | close => exact close_effect
  | read => exact read_mute.effect
  | write => exact write_mute.effect
  | lstat | stat => exact stat_mute.effect
  | fstat => exact fstat_mute.effect
  | setstat => exact setstat_mute.effect
  | fsetstat => exact fsetstat_mute.effect
  | opendir id path =>
      rw [handle, opendir_issues]
      exact issueFor_effect opendirObject_quiet fun _ _ h => .opendir h
  | readdir => exact readdir_effect
  | remove => exact remove_mute.effect
  | mkdir => exact mkdir_mute.effect
  | rmdir => exact rmdir_mute.effect
  | realpath => exact realpath_mute.effect
  | rename => exact renameRequest_mute.effect
  | readlink | symlink | extended => exact Mute.throw.effect

omit [DecidableEq ν] in
/-- What a request may make of the token it uses. -/
def Touches (request : Request) (token : List Char) (old new : Option (SftpHandle ν)) : Prop :=
  ((∃ id, request = .close id token) ∧ new = none) ∨
    ∃ entries, old = some (.directory entries) ∧ new = some (.directory none)

omit [DecidableEq ν] in
/-- What a live token stands for is later than what it was issued for. -/
theorem Touches.later {request : Request} {token : List Char} {old new : Option (SftpHandle ν)}
    {object current : SftpHandle ν} (h : Touches request token old new)
    (hold : ∀ current, old = some current → object.Later current) (hnew : new = some current) :
    object.Later current := by
  rcases h with ⟨_, hnone⟩ | ⟨entries, hlisting, hgiven⟩
  · rw [hnone] at hnew
    cases hnew
  · rw [hgiven] at hnew
    cases hnew
    cases hold _ hlisting with
    | same => exact .givenOut entries
    | givenOut entries' => exact .givenOut entries'

/-- Only a `close` or a `readdir` with the token changes what it stands for, if it is not issued
by the request. -/
theorem handles_cases (E : Env ν) (root : Loc ν) (s : Server ν) (request : Request)
    {token : List Char} (hnext : ∀ object, IssuedFor E root s request object →
      token ≠ tokenOf s.session.nextHandle.toNat) :
    (afterRequest (handle E root request s)).session.handles token = s.session.handles token ∨
      (request.token? = some token ∧ Touches request token (s.session.handles token)
        ((afterRequest (handle E root request s)).session.handles token)) := by
  have heffect := handle_effect E root s request
  -- from here on the request counts only by its effect
  generalize (afterRequest (handle E root request s)).session = session at heffect ⊢
  generalize answerOf (handle E root request s) = answer at heffect
  cases heffect with
  | quiet hhandles _ _ => exact .inl (congrFun hhandles token)
  | issue hissued => exact .inl (Session.withHandle_of_ne _ (hnext _ hissued) _)
  | @close id closed hrequest =>
      by_cases htoken : token = closed
      · subst htoken
        refine .inr ⟨by rw [hrequest]; rfl, .inl ⟨⟨id, hrequest⟩, ?_⟩⟩
        exact Session.withHandle_self ..
      · exact .inl (Session.withHandle_of_ne _ htoken _)
  | @giveOut id listed entries _ hrequest hlisting _ =>
      by_cases htoken : token = listed
      · subst htoken
        refine .inr ⟨by rw [hrequest]; rfl, .inr ⟨entries, hlisting, ?_⟩⟩
        exact Session.withHandle_self ..
      · exact .inl (Session.withHandle_of_ne _ htoken _)

/-- A token that is not in the table is refused, whatever is asked of it. -/
theorem handle_of_dead {request : Request} {token : List Char} (h : request.token? = some token)
    (hdead : s.session.handles token = none) :
    answerOf (handle E root request s) = .error .failure := by
  -- all requests for a file look the handle up first
  have hfile : fileHandle token s = .error .failure s := by
    have hsession : (getSession : SftpM ν (Session ν)) s = .ok s.session s := rfl
    rw [fileHandle, bind_of_ok hsession]
    simp only [hdead]
    rfl
  cases request with
  | close id handle =>
      cases h
      rw [handle, close_of_dead hdead]
      rfl
  | read id handle offset len =>
      cases h
      rw [handle, read, bind_of_error hfile]
      rfl
  | write id handle offset data =>
      cases h
      rw [handle, write]
      by_cases hsize : data.length ≤ maxIoSize
      · -- `write` checks the size before the handle; both fail the same way
        have hensure : (ensure (data.length ≤ maxIoSize) .failure : SftpM ν Unit) s = .ok () s :=
          ensure_eq_ok_iff.mpr ⟨hsize, rfl⟩
        rw [bind_of_ok hensure, bind_of_error hfile]
        rfl
      · rw [ensure, if_neg hsize]
        rfl
  | fstat id handle =>
      cases h
      rw [handle, fstat, bind_of_error hfile]
      rfl
  | fsetstat id handle attrs =>
      cases h
      rw [handle, fsetstat, bind_of_error hfile]
      rfl
  | readdir id handle =>
      cases h
      rw [handle, readdir_of_dead hdead]
      rfl
  -- the other requests have no token
  | init | open_ | lstat | setstat | opendir | remove | mkdir | rmdir | realpath | stat | rename
    | readlink | symlink | extended => cases h

end OneRequest

/-! ## Runs -/

/-- The server after a sequence of requests. -/
def serve (E : Env ν) (root : Loc ν) (s : Server ν) (requests : List Request) : Server ν :=
  requests.foldl (fun s request => afterRequest (handle E root request s)) s

theorem serve_cons (E : Env ν) (root : Loc ν) (s : Server ν) (request : Request)
    (requests : List Request) :
    serve E root s (request :: requests) =
      serve E root (afterRequest (handle E root request s)) requests :=
  rfl

theorem serve_append (E : Env ν) (root : Loc ν) (s : Server ν) (done more : List Request) :
    serve E root s (done ++ more) = serve E root (serve E root s done) more :=
  List.foldl_append ..

/-- The last request of a run is answered in the state behind the others. -/
theorem serve_concat (E : Env ν) (root : Loc ν) (s : Server ν) (done : List Request)
    (request : Request) :
    serve E root s (done ++ [request]) =
      afterRequest (handle E root request (serve E root s done)) :=
  List.foldl_concat ..

omit [DecidableEq ν] in
/-- The token has been issued. -/
def Issued (token : List Char) (s : Server ν) : Prop :=
  ∃ k < s.session.nextHandle.toNat, token = tokenOf k

omit [DecidableEq ν] in
/-- Every token in the table has been issued. -/
def Numbered (s : Server ν) : Prop :=
  ∀ token, s.session.handles token ≠ none → Issued token s

section Steps

variable {E : Env ν} {root : Loc ν} {s : Server ν} {request : Request} {token : List Char}

/-- The counter goes up by at most one, as long as it does not come round. -/
theorem counter_step (E : Env ν) (root : Loc ν) (request : Request)
    (hroom : s.session.nextHandle.toNat + 1 < 2 ^ 64) :
    s.session.nextHandle.toNat ≤
        (afterRequest (handle E root request s)).session.nextHandle.toNat ∧
      (afterRequest (handle E root request s)).session.nextHandle.toNat ≤
        s.session.nextHandle.toNat + 1 := by
  have heffect := handle_effect E root s request
  generalize (afterRequest (handle E root request s)).session = session at heffect ⊢
  generalize answerOf (handle E root request s) = answer at heffect
  cases heffect with
  | quiet _ hnext _ =>
      rw [hnext]
      omega
  | issue _ =>
      -- `wrapping_add`, which does not wrap here
      have hsucc : (s.session.nextHandle + 1).toNat = s.session.nextHandle.toNat + 1 := by
        rw [UInt64.toNat_add]
        exact Nat.mod_eq_of_lt hroom
      simp only [Session.withHandle]
      omega
  | close _ =>
      simp only [Session.withHandle]
      omega
  | giveOut _ _ _ =>
      simp only [Session.withHandle]
      omega

/-- An issued token stays behind the counter. -/
theorem Issued.step (h : Issued token s) (hroom : s.session.nextHandle.toNat + 1 < 2 ^ 64) :
    Issued token (afterRequest (handle E root request s)) := by
  rcases h with ⟨k, hk, htoken⟩
  have hcounter := counter_step E root request hroom
  exact ⟨k, by omega, htoken⟩

omit [DecidableEq ν] in
/-- An issued token is not the one that is issued next. -/
theorem Issued.ne_next (h : Issued token s) : token ≠ tokenOf s.session.nextHandle.toNat := by
  rcases h with ⟨k, hk, htoken⟩
  rw [htoken]
  intro heq
  have hk' := tokenOf_injective heq
  omega

/-- The token that a request issues, with what it is issued for. -/
theorem issue_cases {id : UInt32}
    (h : answerOf (handle E root request s) = .ok (.handle id token)) :
    token = tokenOf s.session.nextHandle.toNat ∧
      ∃ object, IssuedFor E root s request object ∧
        (afterRequest (handle E root request s)).session.handles token = some object ∧
        (afterRequest (handle E root request s)).session.nextHandle =
          s.session.nextHandle + 1 := by
  have heffect := handle_effect E root s request
  generalize (afterRequest (handle E root request s)).session = session at heffect ⊢
  rw [h] at heffect
  cases heffect with
  | quiet _ _ hanswer => cases hanswer _ rfl
  | issue hissued => exact ⟨rfl, _, hissued, Session.withHandle_self .., rfl⟩
  | giveOut _ _ hanswer => cases hanswer _ rfl

/-- What is in the table was there before or has just been issued. -/
theorem live_cases (h : (afterRequest (handle E root request s)).session.handles token ≠ none) :
    s.session.handles token ≠ none ∨
      ∃ id, answerOf (handle E root request s) = .ok (.handle id token) := by
  have heffect := handle_effect E root s request
  generalize (afterRequest (handle E root request s)).session = session at heffect h
  generalize answerOf (handle E root request s) = answer at heffect ⊢
  cases heffect with
  | quiet hhandles _ _ =>
      -- a token that is live afterwards was so before, or is the issued one
      rw [hhandles] at h
      exact .inl h
  | @issue id object _ =>
      by_cases htoken : token = tokenOf s.session.nextHandle.toNat
      · rw [htoken]
        exact .inr ⟨id, rfl⟩
      · rw [Session.withHandle_of_ne _ htoken] at h
        exact .inl h
  | @close id closed _ =>
      by_cases htoken : token = closed
      · -- the closed token is gone
        rw [htoken, Session.withHandle_self] at h
        exact absurd rfl h
      · rw [Session.withHandle_of_ne _ htoken] at h
        exact .inl h
  | @giveOut id listed entries _ _ hlisting _ =>
      by_cases htoken : token = listed
      · -- the listing is taken out, its handle stays
        rw [htoken, hlisting]
        exact .inl nofun
      · rw [Session.withHandle_of_ne _ htoken] at h
        exact .inl h

/-- A token has been issued once it is answered with. -/
theorem issued_of_answer {id : UInt32}
    (h : answerOf (handle E root request s) = .ok (.handle id token))
    (hroom : s.session.nextHandle.toNat + 1 < 2 ^ 64) :
    Issued token (afterRequest (handle E root request s)) := by
  rcases issue_cases h with ⟨htoken, object, _, _, hcounter⟩
  refine ⟨s.session.nextHandle.toNat, ?_, htoken⟩
  rw [hcounter, UInt64.toNat_add]
  have hsucc : (s.session.nextHandle.toNat + 1) % 2 ^ 64 = s.session.nextHandle.toNat + 1 :=
    Nat.mod_eq_of_lt hroom
  show s.session.nextHandle.toNat < (s.session.nextHandle.toNat + 1) % 2 ^ 64
  omega

/-- Live tokens keep numbers below the counter. -/
theorem Numbered.step (h : Numbered s) (hroom : s.session.nextHandle.toNat + 1 < 2 ^ 64) :
    Numbered (afterRequest (handle E root request s)) := by
  intro token hlive
  rcases live_cases hlive with hbefore | ⟨id, hanswer⟩
  · exact (h token hbefore).step hroom
  · exact issued_of_answer hanswer hroom

/-- One request with a closed token: it stays closed. -/
theorem closed_of_ok {id : UInt32} {reply : Reply}
    (h : answerOf (handle E root (.close id token) s) = .ok reply) :
    s.session.handles token ≠ none ∧
      (afterRequest (handle E root (.close id token) s)).session.handles token = none := by
  cases hhandle : s.session.handles token with
  | none =>
      rw [handle, close_of_dead hhandle] at h
      cases h
  | some object =>
      rw [handle, close_of_live hhandle]
      exact ⟨nofun, Session.withHandle_self ..⟩

end Steps

section Runs

variable {E : Env ν} {root : Loc ν} {s : Server ν} {token : List Char}

/-- The counter grows by one a request at most. -/
theorem counter_run (E : Env ν) (root : Loc ν) {requests : List Request}
    (hroom : s.session.nextHandle.toNat + requests.length < 2 ^ 64) :
    (serve E root s requests).session.nextHandle.toNat ≤
      s.session.nextHandle.toNat + requests.length := by
  induction requests generalizing s with
  | nil => exact Nat.le_refl _
  | cons request requests ih =>
      rw [List.length_cons] at hroom ⊢
      have hstep := counter_step E root request (s := s) (by omega)
      have hrest := ih (s := afterRequest (handle E root request s)) (by omega)
      rw [serve_cons]
      omega

/-- In every run with enough numbers, live tokens have numbers below the counter. -/
theorem Numbered.run {requests : List Request} (h : Numbered s)
    (hroom : s.session.nextHandle.toNat + requests.length < 2 ^ 64) :
    Numbered (serve E root s requests) := by
  induction requests generalizing s with
  | nil => exact h
  | cons request requests ih =>
      rw [List.length_cons] at hroom
      have hstep := counter_step E root request (s := s) (by omega)
      rw [serve_cons]
      exact ih (h.step (by omega)) (by omega)

/-- What the requests that may touch an issued token keep of it, a run keeps. -/
theorem issued_run {P : Option (SftpHandle ν) → Prop} {requests : List Request}
    (hissued : Issued token s)
    (hroom : s.session.nextHandle.toNat + requests.length < 2 ^ 64)
    (hkeep : ∀ request ∈ requests, ∀ old new, Touches request token old new → P old → P new)
    (h : P (s.session.handles token)) : P ((serve E root s requests).session.handles token) := by
  induction requests generalizing s with
  | nil => exact h
  | cons request requests ih =>
      rw [List.length_cons] at hroom
      have hcounter := counter_step E root request (s := s) (by omega)
      rw [serve_cons]
      refine ih (hissued.step (by omega)) (by omega)
        (fun r hr => hkeep r (List.mem_cons_of_mem request hr)) ?_
      rcases handles_cases E root s request (fun _ _ => hissued.ne_next) with heq | ⟨_, htouches⟩
      · rw [heq]
        exact h
      · exact hkeep request List.mem_cons_self _ _ htouches h

end Runs

/-- The discipline of the table along a sequence of requests. -/
structure Tokens (E : Env ν) (root : Loc ν) (start : Server ν) (requests : List Request) :
    Prop where
  /-- Every token in the table has a number below the counter. -/
  numbered : ∀ done, done <+: requests →
    ∀ token, (serve E root start done).session.handles token ≠ none →
      ∃ k < (serve E root start done).session.nextHandle.toNat, token = tokenOf k
  /-- A token that is issued was not in the table. -/
  fresh : ∀ done request, done ++ [request] <+: requests →
    ∀ id token,
      answerOf (handle E root request (serve E root start done)) = .ok (.handle id token) →
      (serve E root start done).session.handles token = none
  /-- A token stands for what it was issued for, as long as it is in the table, and it is in the
  table as long as it is not closed. -/
  denotes : ∀ done request more, done ++ request :: more <+: requests →
    ∀ id token,
      answerOf (handle E root request (serve E root start done)) = .ok (.handle id token) →
      ∃ object, IssuedFor E root (serve E root start done) request object ∧
        (∀ current, (serve E root start (done ++ request :: more)).session.handles token =
            some current → object.Later current) ∧
        ((∀ id, .close id token ∉ more) →
          (serve E root start (done ++ request :: more)).session.handles token ≠ none)
  /-- A request with one token leaves the others alone. -/
  apart : ∀ done request, done ++ [request] <+: requests →
    ∀ token other, request.token? = some token → other ≠ token →
      (serve E root start (done ++ [request])).session.handles other =
        (serve E root start done).session.handles other
  /-- A request that fails issues no token. -/
  failed : ∀ done request, done ++ [request] <+: requests →
    ∀ code, answerOf (handle E root request (serve E root start done)) = .error code →
      ∀ token, (serve E root start (done ++ [request])).session.handles token ≠ none →
        (serve E root start done).session.handles token ≠ none
  /-- A token that was closed is refused from then on. -/
  closed : ∀ done id token more request,
    done ++ .close id token :: more ++ [request] <+: requests →
    (∃ reply, answerOf (handle E root (.close id token) (serve E root start done)) = .ok reply) →
    request.token? = some token →
      answerOf (handle E root request (serve E root start (done ++ .close id token :: more))) =
        .error .failure

/-- For every system and every sequence of fewer than 2^64 requests to a new session, whatever they
are and however they end: the tokens in the table are numbered below the counter, a token is
issued for what was opened and never while it is in the table, it stands for that as long as it is
not closed, other requests leave it alone, a request that fails issues none, and a closed token is
refused. -/
theorem session_tokens (E : Env ν) (root : Loc ν) (os : Os ν) (requests : List Request)
    (hlength : requests.length < 2 ^ 64) : Tokens E root { os } requests := by
  -- fewer than `2 ^ 64` requests never use up the counter
  have hroom : ∀ done more, done ++ more <+: requests →
      (serve E root ({ os } : Server ν) done).session.nextHandle.toNat + more.length < 2 ^ 64 := by
    intro done more hpart
    have hlen := hpart.length_le
    rw [List.length_append] at hlen
    have hcounter : (serve E root ({ os } : Server ν) done).session.nextHandle.toNat ≤
        0 + done.length :=
      counter_run E root (s := { os }) (show 0 + done.length < 2 ^ 64 by omega)
    omega
  -- at the start no token is live
  have hnumbered : ∀ done, done <+: requests →
      Numbered (serve E root ({ os } : Server ν) done) := by
    intro done hpart
    have hlen := hpart.length_le
    have hstart : Numbered ({ os } : Server ν) := fun _ hlive => absurd rfl hlive
    exact hstart.run (show 0 + done.length < 2 ^ 64 by omega)
  constructor
  · exact fun done hpart => hnumbered done hpart
  · -- the tokens in the table have lower numbers than the one that is issued
    intro done request hpart id token hanswer
    have hnum := hnumbered done ((List.prefix_append _ _).trans hpart)
    by_contra hlive
    exact (hnum token hlive).ne_next (issue_cases hanswer).1
  · -- once issued, a token is touched by its own `close` and `readdir` only
    intro done request more hpart id token hanswer
    have hroom' := hroom done (request :: more) hpart
    rw [List.length_cons] at hroom'
    have hcounter := counter_step E root request (s := serve E root { os } done) (by omega)
    have hissued := issued_of_answer hanswer (by omega)
    rcases issue_cases hanswer with ⟨_, object, hfor, hobject, _⟩
    rw [serve_append, serve_cons]
    refine ⟨object, hfor, ?_, ?_⟩
    · refine issued_run (P := fun o => ∀ current, o = some current → object.Later current) hissued
        (by omega) ?_ ?_
      · intro request _ old new htouches hold current hcurrent
        exact htouches.later hold hcurrent
      · intro current hcurrent
        rw [hobject] at hcurrent
        cases hcurrent
        exact .same object
    · intro hopen
      refine issued_run (P := (· ≠ none)) hissued (by omega) ?_ ?_
      · intro request hmem old new htouches _
        rcases htouches with ⟨⟨id, hclose⟩, _⟩ | ⟨entries, _, hnew⟩
        · exact absurd (hclose ▸ hmem) (hopen id)
        · rw [hnew]
          exact nofun
      · rw [hobject]
        exact nofun
  · -- a request that names a token issues none
    intro done request hpart token other htoken hother
    rw [serve_concat]
    have hnot : ∀ object, IssuedFor E root (serve E root { os } done) request object →
        other ≠ tokenOf (serve E root ({ os } : Server ν) done).session.nextHandle.toNat := by
      intro object hissued
      cases hissued with
      | open_ _ => cases htoken
      | opendir _ => cases htoken
    rcases handles_cases E root _ request hnot with heq | ⟨hsame, _⟩
    · exact heq
    · rw [htoken] at hsame
      exact absurd (Option.some.inj hsame).symm hother
  · intro done request hpart code hanswer token hlive
    rw [serve_concat] at hlive
    rcases live_cases hlive with hbefore | ⟨id, hissue⟩
    · exact hbefore
    · rw [hanswer] at hissue
      cases hissue
  · -- its number is below the counter, so it does not come back
    intro done id token more request hpart hclosed htoken
    rcases hclosed with ⟨reply, hclosed⟩
    have hpart' : done ++ .close id token :: more <+: requests :=
      (List.prefix_append _ _).trans hpart
    have hroom' := hroom done (.close id token :: more) hpart'
    rw [List.length_cons] at hroom'
    have hnum := hnumbered done ((List.prefix_append _ _).trans hpart')
    rcases closed_of_ok hclosed with ⟨hlive, hdead⟩
    have hcounter :=
      counter_step E root (.close id token) (s := serve E root { os } done) (by omega)
    have hissued : Issued token (afterRequest (handle E root (.close id token) _)) :=
      (hnum token hlive).step (by omega)
    apply handle_of_dead htoken
    rw [serve_append, serve_cons]
    refine issued_run (P := (· = none)) hissued (by omega) ?_ hdead
    intro request _ old new htouches hold
    rcases htouches with ⟨_, hnew⟩ | ⟨entries, hsome, _⟩
    · exact hnew
    · rw [hold] at hsome
      cases hsome

/-- The file is opened, closed and opened again: the first token is refused, although a token for
the same file is in the table. -/
theorem session_tokens_reopened :
    (serve textEnv [['r']] { os := { fs := byteRoot } }
        [.open_ 1 ['f'] { read := true } {}, .close 2 "fixture-0".toList,
          .open_ 3 ['f'] { read := true } {}]).session.handles "fixture-1".toList ≠ none ∧
      answerOf (handle textEnv [['r']] (.fstat 4 "fixture-0".toList)
        (serve textEnv [['r']] { os := { fs := byteRoot } }
          [.open_ 1 ['f'] { read := true } {}, .close 2 "fixture-0".toList,
            .open_ 3 ['f'] { read := true } {}])) = .error .failure := by
  refine ⟨by decide +kernel, ?_⟩
  have htokens := session_tokens textEnv [['r']] { fs := byteRoot }
    [.open_ 1 ['f'] { read := true } {}, .close 2 "fixture-0".toList,
      .open_ 3 ['f'] { read := true } {}, .fstat 4 "fixture-0".toList] (by decide)
  exact htokens.closed [.open_ 1 ['f'] { read := true } {}] 2 "fixture-0".toList
    [.open_ 3 ['f'] { read := true } {}] (.fstat 4 "fixture-0".toList) List.prefix_rfl
    ⟨okStatus 2, by decide +kernel⟩ rfl

end Rssh.Sftp
