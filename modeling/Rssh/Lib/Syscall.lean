import Mathlib.Logic.Function.Basic
import Rssh.Lib.Posix

/-!
# System calls on a file tree

A program works on an `Os`: the tree, the faults the system is going to show, and a log of
what has been touched. A call resolves its path in the tree as it is, logs the locations it
touches, and then either fails (on the caller's account, or by a fault) or changes the tree.
A fault is any error but a missing name: the system says that a name is missing only when it
is.

* `Inside` is the containment of the log in a directory.
* `Fs.Plain` locations are those that a path of plain names reaches without a link;
  `resolve_plain` is the reason that a checked location stays the one that is used.
* `Triple` and its rules are the pre- and postconditions for programs that can fail.
-/

namespace Posix

/-! ## The system -/

inductive AccessKind where
  | read
  | attributes
  | list
  | create
  | write
  | rename
  | remove
  | chmod
deriving DecidableEq, Repr

/-- A location that a call touches. -/
structure Access (ν : Type) where
  kind : AccessKind
  loc : Loc ν
deriving DecidableEq, Repr

/-- A failure of the system on its own account. -/
inductive Fault where
  | denied
  | invalid
  | other
deriving DecidableEq, Repr

def Fault.errno : Fault → Errno
  | .denied => .denied
  | .invalid => .invalid
  | .other => .other

structure Os (ν : Type) where
  fs : Fs ν
  fault : Nat → Option Fault := fun _ => none
  /-- How many bytes a call has stored that writes several times and then fails by a fault. -/
  stored : Nat → Nat := fun _ => 0
  calls : Nat := 0
  log : List (Access ν) := []

/-- A program on the system. -/
abbrev Sys (ν : Type) := EStateM Errno (Os ν)

/-- What a call does to the tree, and the locations it touches. -/
abbrev CallEffect (ν α : Type) := Except Errno (α × Fs ν) × List (Access ν)

variable {ν : Type}

/-- One call: its accesses are logged also when it fails. -/
def syscall {α : Type} (effect : Fs ν → CallEffect ν α) : Sys ν α := fun os =>
  let os' := { os with calls := os.calls + 1, log := os.log ++ (effect os.fs).2 }
  match os.fault os.calls with
  | some fault => .error fault.errno os'
  | none =>
      match (effect os.fs).1 with
      | .ok (value, fs) => .ok value { os' with fs }
      | .error errno => .error errno os'

/-- A call that only looks. -/
def observe {α : Type} (look : Fs ν → Except Errno α) : Sys ν α :=
  syscall fun fs => ((look fs).map fun value => (value, fs), [])

inductive FileKind where
  | file
  | dir
  | link
  | special
deriving DecidableEq, Repr

/-- The attributes that the programs look at. -/
structure Metadata where
  kind : FileKind
  mode : Nat
  size : Nat
deriving DecidableEq, Repr

variable [DecidableEq ν]

namespace Fs

/-- `realpath`. -/
def canonicalize (fs : Fs ν) (path : List (Seg ν)) : Except Errno (Loc ν) :=
  match fs.resolve true path with
  | .found loc => .ok loc
  | .missing _ _ => .error .notFound
  | .failed errno => .error errno

/-- `stat` (following) and `lstat` (not following): the object and where it is. -/
def lookup (fs : Fs ν) (follow : Bool) (path : List (Seg ν)) : Except Errno (Loc ν × Obj ν) :=
  match fs.resolve follow path with
  | .found loc =>
      match fs.get loc with
      | some obj => .ok (loc, obj)
      | none => .error .notFound
  | .missing _ _ => .error .notFound
  | .failed errno => .error errno

/-- `mkdir`, with the mode the usual umask leaves. -/
def createDir (fs : Fs ν) (path : List (Seg ν)) : CallEffect ν Unit :=
  match fs.resolve false path with
  | .found _ => (.error .exists_, [])
  | .failed errno => (.error errno, [])
  | .missing dir n =>
      (.ok ((), fs.set (dir ++ [n]) (.dir 0o755)), [⟨.create, dir ++ [n]⟩])

/-- A new file with an inode of its own. -/
def newFile (fs : Fs ν) (loc : Loc ν) (data : List UInt8) : Fs ν :=
  { fs.set loc (.file fs.nextIno) with
    inode := Function.update fs.inode fs.nextIno { data, mode := 0o644 }
    nextIno := fs.nextIno + 1 }

def setInode (fs : Fs ν) (ino : Nat) (inode : Inode) : Fs ν :=
  { fs with inode := Function.update fs.inode ino inode }

/-- Open for writing, creating or truncating, and write everything. -/
def writeFile (fs : Fs ν) (path : List (Seg ν)) (data : List UInt8) : CallEffect ν Unit :=
  match fs.resolve true path with
  | .failed errno => (.error errno, [])
  | .missing dir n =>
      (.ok ((), fs.newFile (dir ++ [n]) data),
        [⟨.create, dir ++ [n]⟩, ⟨.write, dir ++ [n]⟩])
  | .found loc =>
      match fs.get loc with
      | some (.file ino) =>
          (.ok ((), fs.setInode ino { fs.inode ino with data }), [⟨.write, loc⟩])
      | some (.dir _) => (.error .isDirectory, [])
      | some (.link _) => (.error .tooManyLinks, [])
      | some .special => (.ok ((), fs), [⟨.write, loc⟩])
      | none => (.error .notFound, [])

/-- The object of a location gets new permission bits. -/
def chmodAt (fs : Fs ν) (loc : Loc ν) (mode : Nat) : Fs ν :=
  match fs.get loc with
  | some (.file ino) => fs.setInode ino { fs.inode ino with mode }
  | some (.dir _) => fs.set loc (.dir mode)
  | some (.link _) => fs
  | some .special => fs
  | none => fs

/-- `chmod`. -/
def setPermissions (fs : Fs ν) (path : List (Seg ν)) (mode : Nat) : CallEffect ν Unit :=
  match fs.resolve true path with
  | .found loc => (.ok ((), fs.chmodAt loc mode), [⟨.chmod, loc⟩])
  | .missing _ _ => (.error .notFound, [])
  | .failed errno => (.error errno, [])

/-- Open for reading and read everything. -/
def readFile (fs : Fs ν) (path : List (Seg ν)) : CallEffect ν (List UInt8) :=
  match fs.resolve true path with
  | .failed errno => (.error errno, [])
  | .missing _ _ => (.error .notFound, [])
  | .found loc =>
      match fs.get loc with
      | some (.file ino) => (.ok ((fs.inode ino).data, fs), [⟨.read, loc⟩])
      | some (.dir _) => (.error .isDirectory, [])
      | some (.link _) => (.error .tooManyLinks, [])
      | some .special => (.error .invalid, [⟨.read, loc⟩])
      | none => (.error .notFound, [])

/-- The names in a directory. -/
def readDir (fs : Fs ν) (path : List (Seg ν)) : CallEffect ν (List ν) :=
  match fs.lookup true path with
  | .ok (loc, .dir _) => (.ok (fs.children loc, fs), [⟨.list, loc⟩])
  | .ok (_, .file _) => (.error .notDirectory, [])
  | .ok (_, .link _) => (.error .notDirectory, [])
  | .ok (_, .special) => (.error .notDirectory, [])
  | .error errno => (.error errno, [])

omit [DecidableEq ν] in
/-- The attributes of an object. -/
def metadata (fs : Fs ν) : Obj ν → Metadata
  | .file ino => ⟨.file, (fs.inode ino).mode, (fs.inode ino).data.length⟩
  | .dir mode => ⟨.dir, mode, 0⟩
  | .link _ => ⟨.link, 0o777, 0⟩
  | .special => ⟨.special, 0, 0⟩

/-- The attributes of what a path leads to, to be handed on. -/
def attributes (fs : Fs ν) (follow : Bool) (path : List (Seg ν)) : CallEffect ν Metadata :=
  match fs.lookup follow path with
  | .ok (loc, obj) => (.ok (fs.metadata obj, fs), [⟨.attributes, loc⟩])
  | .error errno => (.error errno, [])

end Fs

/-! ## Containment -/

/-- Everything touched lies in the directory. -/
def Inside (root : Loc ν) (accesses : List (Access ν)) : Prop :=
  ∀ access ∈ accesses, root <+: access.loc

instance (root : Loc ν) (accesses : List (Access ν)) : Decidable (Inside root accesses) :=
  inferInstanceAs (Decidable (∀ access ∈ accesses, root <+: access.loc))

omit [DecidableEq ν] in
theorem inside_nil {root : Loc ν} : Inside root ([] : List (Access ν)) := by
  intro access h
  cases h

omit [DecidableEq ν] in
/-- Accesses are inside the root if they are so one by one. -/
theorem inside_append {root : Loc ν} {xs ys : List (Access ν)} :
    Inside root (xs ++ ys) ↔ Inside root xs ∧ Inside root ys := by
  simp only [Inside, List.mem_append]
  constructor
  · intro h
    exact ⟨fun a ha => h a (.inl ha), fun a ha => h a (.inr ha)⟩
  · rintro ⟨hx, hy⟩ a (ha | ha)
    · exact hx a ha
    · exact hy a ha

/-! ## Plain locations -/

namespace Fs

/-- The way to the location is solid, and no link stands there. -/
def Plain (fs : Fs ν) (loc : Loc ν) : Prop :=
  fs.Solid loc.dropLast ∧ ∀ text, fs.get loc ≠ some (.link text)

variable {fs : Fs ν} {loc : Loc ν}

/-- The names of a plain location lead to it and nowhere else. -/
theorem resolve_plain (h : fs.Plain loc) (follow : Bool) :
    (∃ obj, fs.get loc = some obj ∧ fs.resolve follow loc.path = .found loc) ∨
      ∃ dir n, loc = dir ++ [n] ∧ fs.get loc = none ∧
        fs.resolve follow loc.path = .missing dir n := by
  cases hget : fs.get loc with
  | some obj =>
      refine .inl ⟨obj, rfl, resolve_found_names h.1 hget fun _ text heq => ?_⟩
      exact h.2 text (heq ▸ hget)
  | none =>
      rcases List.eq_nil_or_concat loc with rfl | ⟨dir, n, rfl⟩
      · rw [get_nil] at hget
        cases hget
      · have hsolid := h.1
        rw [List.concat_eq_append] at hget hsolid ⊢
        rw [List.dropLast_concat] at hsolid
        exact .inr ⟨dir, n, rfl, rfl, (resolve_concat hsolid).1 hget⟩

/-- A plain location is found as itself, or missing, whether links are followed or not. -/
theorem lookup_plain (h : fs.Plain loc) (follow : Bool) :
    fs.lookup follow loc.path =
      match fs.get loc with
      | some obj => .ok (loc, obj)
      | none => .error .notFound := by
  rcases resolve_plain h follow with ⟨obj, hget, hres⟩ | ⟨dir, n, -, hget, hres⟩
  · simp [lookup, hres, hget]
  · simp [lookup, hres, hget]

/-- A plain location is its own canonical path. -/
theorem canonicalize_plain {obj : Obj ν} (h : fs.Plain loc) (hget : fs.get loc = some obj) :
    fs.canonicalize loc.path = .ok loc := by
  rcases resolve_plain h true with ⟨_, -, hres⟩ | ⟨_, _, -, hnone, -⟩
  · simp [canonicalize, hres]
  · rw [hget] at hnone
    cases hnone

/-- A canonical location is plain and stands for something. -/
theorem canonicalize_ok {path : List (Seg ν)} (h : fs.canonicalize path = .ok loc) :
    fs.Plain loc ∧ ∃ obj, fs.get loc = some obj := by
  have hends := @resolve_ends _ _ fs true path
  simp only [canonicalize] at h
  split at h
  · rename_i hres
    obtain rfl := Except.ok.inj h
    rw [hres] at hends
    rcases hends with ⟨hsolid, obj, hget, hlink⟩
    refine ⟨⟨hsolid, fun text hlinked => ?_⟩, obj, hget⟩
    rw [hget] at hlinked
    exact hlink rfl text (Option.some.inj hlinked)
  · cases h
  · cases h

/-- A plain directory is solid. -/
theorem Plain.solid {mode : Nat} (h : fs.Plain loc) (hget : fs.get loc = some (.dir mode)) :
    fs.Solid loc := by
  rcases List.eq_nil_or_concat loc with rfl | ⟨dir, n, rfl⟩
  · exact solid_nil
  · have hsolid := h.1
    rw [List.concat_eq_append] at hget hsolid ⊢
    rw [List.dropLast_concat] at hsolid
    exact solid_concat.mpr ⟨hsolid, mode, hget⟩

/-- A directory that is reached through directories alone is a plain location. -/
theorem Solid.plain (h : fs.Solid loc) : fs.Plain loc := by
  refine ⟨h.dropLast, fun text hlink => ?_⟩
  rcases h.get with ⟨mode, hmode⟩
  rw [hlink] at hmode
  cases hmode

/-- A name in a solid directory is plain unless it is a link. -/
theorem Solid.concat_plain {dir : Loc ν} {n : ν} (h : fs.Solid dir)
    (hlink : ∀ text, fs.get (dir ++ [n]) ≠ some (.link text)) : fs.Plain (dir ++ [n]) :=
  ⟨by rwa [List.dropLast_concat], hlink⟩

/-- Nothing is found or missing below something that is no directory. -/
theorem resolve_below (follow : Bool) {dir : Loc ν} {n : ν} {obj : Obj ν}
    (hsolid : fs.Solid dir.dropLast) (hget : fs.get dir = some obj)
    (hfile : (∃ ino, obj = .file ino) ∨ obj = .special) :
    fs.resolve follow (dir ++ [n]).path = .failed .notDirectory := by
  rcases List.eq_nil_or_concat dir with rfl | ⟨dir, m, rfl⟩
  · rw [get_nil] at hget
    rcases hfile with ⟨ino, rfl⟩ | rfl <;> cases hget
  · rw [List.concat_eq_append] at hget hsolid ⊢
    rw [List.dropLast_concat] at hsolid
    have hpath : Loc.path (dir ++ [m] ++ [n]) = Loc.path dir ++ [.name m, .name n] := by
      simp [Loc.path]
    have hwalk := advance_names follow [.name m, .name n] (show fs.Solid ([] ++ dir) from hsolid)
    have hadvance : fs.advance follow dir [.name m, .name n] = .failed .notDirectory := by
      rcases hfile with ⟨ino, rfl⟩ | rfl <;> simp [advance, hget]
    rw [List.nil_append, hadvance] at hwalk
    rw [resolve, hpath, resolveFrom, hwalk]

/-- Nothing is below a file. -/
theorem lookup_below {dir : Loc ν} {n : ν} {obj : Obj ν} (hsolid : fs.Solid dir.dropLast)
    (hget : fs.get dir = some obj) (hfile : (∃ ino, obj = .file ino) ∨ obj = .special) :
    fs.lookup false (dir ++ [n]).path = .error .notDirectory := by
  rw [lookup, resolve_below false hsolid hget hfile]

/-- A name in a solid directory. -/
theorem lookup_child {dir : Loc ν} (n : ν) (hsolid : fs.Solid dir) :
    fs.lookup false (dir ++ [n]).path = match fs.get (dir ++ [n]) with
      | some obj => .ok (dir ++ [n], obj)
      | none => .error .notFound := by
  rcases @resolve_concat _ _ fs false dir n hsolid with ⟨hmissing, hfound⟩
  cases hchild : fs.get (dir ++ [n]) with
  | none => simp [lookup, hmissing hchild]
  | some obj => simp [lookup, hfound obj hchild (by simp), hchild]

/-- A name below a canonical place: that place is a directory, or nothing can be below it. -/
theorem lookup_concat {dir : Loc ν} {obj : Obj ν} (n : ν) (h : fs.Plain dir)
    (hget : fs.get dir = some obj) :
    fs.Solid dir ∧
      (fs.lookup false (dir ++ [n]).path = match fs.get (dir ++ [n]) with
        | some obj => .ok (dir ++ [n], obj)
        | none => .error .notFound) ∨
    fs.lookup false (dir ++ [n]).path = .error .notDirectory := by
  cases obj with
  | file ino => exact .inr (lookup_below h.1 hget (.inl ⟨ino, rfl⟩))
  | special => exact .inr (lookup_below h.1 hget (.inr rfl))
  | link text => exact absurd hget (h.2 text)
  | dir mode =>
      have hsolid := h.solid hget
      exact .inl ⟨hsolid, lookup_child n hsolid⟩

/-! ## Calls on plain locations -/

/-- At a plain location `create_dir` sees what stands there, and makes a directory if nothing does.
-/
theorem createDir_plain (h : fs.Plain loc) :
    fs.createDir loc.path =
      match fs.get loc with
      | some _ => (.error .exists_, [])
      | none => (.ok ((), fs.set loc (.dir 0o755)), [⟨.create, loc⟩]) := by
  rcases resolve_plain h false with ⟨obj, hget, hres⟩ | ⟨dir, n, rfl, hget, hres⟩
  · simp [createDir, hres, hget]
  · simp [createDir, hres, hget]

/-- `fs::write` makes the file there, or writes over the one that stands there. -/
theorem writeFile_plain (h : fs.Plain loc) (data : List UInt8) :
    fs.writeFile loc.path data =
      match fs.get loc with
      | none => (.ok ((), fs.newFile loc data), [⟨.create, loc⟩, ⟨.write, loc⟩])
      | some (.file ino) =>
          (.ok ((), fs.setInode ino { fs.inode ino with data }), [⟨.write, loc⟩])
      | some (.dir _) => (.error .isDirectory, [])
      | some (.link _) => (.error .tooManyLinks, [])
      | some .special => (.ok ((), fs), [⟨.write, loc⟩]) := by
  rcases resolve_plain h true with ⟨obj, hget, hres⟩ | ⟨dir, n, rfl, hget, hres⟩
  · cases obj <;> simp [writeFile, hres, hget]
  · simp [writeFile, hres, hget]

/-- `set_permissions` changes the object there. -/
theorem setPermissions_plain {obj : Obj ν} (h : fs.Plain loc) (hget : fs.get loc = some obj)
    (mode : Nat) :
    fs.setPermissions loc.path mode = (.ok ((), fs.chmodAt loc mode), [⟨.chmod, loc⟩]) := by
  rcases resolve_plain h true with ⟨_, -, hres⟩ | ⟨_, _, -, hnone, -⟩
  · simp [setPermissions, hres]
  · rw [hget] at hnone
    cases hnone

/-- The calls on a plain location inside the root stay inside. -/
theorem setPermissions_inside {root : Loc ν} (h : fs.Plain loc) (hroot : root <+: loc)
    (mode : Nat) : Inside root (fs.setPermissions loc.path mode).2 := by
  rcases resolve_plain h true with ⟨_, -, hres⟩ | ⟨_, _, -, -, hres⟩
  · simpa [setPermissions, hres, Inside] using hroot
  · simp [setPermissions, hres, Inside]

theorem createDir_inside {root : Loc ν} (h : fs.Plain loc) (hroot : root <+: loc) :
    Inside root (fs.createDir loc.path).2 := by
  rw [createDir_plain h]
  cases fs.get loc with
  | none => simpa [Inside] using hroot
  | some obj => exact inside_nil

theorem writeFile_inside {root : Loc ν} (h : fs.Plain loc) (hroot : root <+: loc)
    (data : List UInt8) : Inside root (fs.writeFile loc.path data).2 := by
  rw [writeFile_plain h]
  cases fs.get loc with
  | none => simpa [Inside] using hroot
  | some obj =>
      cases obj with
      | dir | link => exact inside_nil
      | file | special => simpa [Inside] using hroot

theorem readFile_inside {root : Loc ν} (h : fs.Plain loc) (hroot : root <+: loc) :
    Inside root (fs.readFile loc.path).2 := by
  rcases resolve_plain h true with ⟨obj, hget, hres⟩ | ⟨_, _, -, -, hres⟩
  · cases obj with
    | dir | link => simp [readFile, hres, hget, Inside]
    | file | special => simpa [readFile, hres, hget, Inside] using hroot
  · simp [readFile, hres, Inside]

theorem readDir_inside {root : Loc ν} (h : fs.Plain loc) (hroot : root <+: loc) :
    Inside root (fs.readDir loc.path).2 := by
  have hlookup := lookup_plain h true
  cases hget : fs.get loc with
  | none => simp [readDir, hlookup, hget, Inside]
  | some obj =>
      cases obj with
      | dir => simpa [readDir, hlookup, hget, Inside] using hroot
      | file | link | special => simp [readDir, hlookup, hget, Inside]

theorem attributes_inside {root : Loc ν} (h : fs.Plain loc) (hroot : root <+: loc)
    (follow : Bool) : Inside root (fs.attributes follow loc.path).2 := by
  have hlookup := lookup_plain h follow
  cases hget : fs.get loc with
  | none => simp [attributes, hlookup, hget, Inside]
  | some obj => simpa [attributes, hlookup, hget, Inside] using hroot

/-! ## Calls that change nothing -/

/-- Reading attributes changes nothing. -/
theorem attributes_same {follow : Bool} {path : List (Seg ν)} {value : Metadata} {fs' : Fs ν}
    (h : (fs.attributes follow path).1 = .ok (value, fs')) : fs' = fs := by
  simp only [attributes] at h
  split at h
  · cases h
    rfl
  · cases h

/-- Listing a directory changes nothing. -/
theorem readDir_same {path : List (Seg ν)} {names : List ν} {fs' : Fs ν}
    (h : (fs.readDir path).1 = .ok (names, fs')) : fs' = fs := by
  simp only [readDir] at h
  split at h <;> cases h
  rfl

/-- A plain place that is listed is a directory. -/
theorem Plain.solid_of_readDir {names : List ν} {fs' : Fs ν} (h : fs.Plain loc)
    (hcall : (fs.readDir loc.path).1 = .ok (names, fs')) : fs.Solid loc := by
  rw [readDir, lookup_plain h] at hcall
  cases hget : fs.get loc with
  | none => simp [hget] at hcall
  | some obj =>
      cases obj with
      | dir mode => exact h.solid hget
      | file | link | special => simp [hget] at hcall

/-- Reading a file changes nothing. -/
theorem readFile_same {path : List (Seg ν)} {data : List UInt8} {fs' : Fs ν}
    (h : (fs.readFile path).1 = .ok (data, fs')) : fs' = fs := by
  simp only [readFile] at h
  split at h
  · cases h
  · cases h
  · split at h <;> cases h
    rfl

/-! ## What changes keep -/

@[simp] theorem get_setInode (ino : Nat) (inode : Inode) (loc' : Loc ν) :
    (fs.setInode ino inode).get loc' = fs.get loc' := rfl

/-- A new file is at its own location alone. -/
theorem get_newFile {data : List UInt8} (hloc : loc ≠ []) (loc' : Loc ν) :
    (fs.newFile loc data).get loc' =
      if loc' = loc then some (.file fs.nextIno) else fs.get loc' :=
  fs.get_set (.file fs.nextIno) hloc

/-- Changing permissions changes no kind of object. -/
theorem get_chmodAt {mode : Nat} (loc' : Loc ν) :
    (fs.chmodAt loc mode).get loc' = fs.get loc' ∨
      ∃ old, fs.get loc' = some (.dir old) ∧
        (fs.chmodAt loc mode).get loc' = some (.dir mode) := by
  simp only [chmodAt]
  split
  · exact .inl rfl
  · rename_i old hget
    -- the root has no entry of its own
    by_cases hnil : loc = []
    · subst hnil
      refine .inl ?_
      by_cases hnil' : loc' = []
      · simp [hnil']
      · simp [get, set, hnil', Ne.symm hnil']
    · rw [get_set _ _ hnil]
      split
      · rename_i heq
        subst heq
        exact .inr ⟨old, hget, rfl⟩
      · exact .inl rfl
  · exact .inl rfl
  · exact .inl rfl
  · exact .inl rfl

/-- A solid way stays solid when an entry is added where there was none. -/
theorem Solid.set {dir : Loc ν} {obj : Obj ν} (h : fs.Solid dir) (hloc : loc ≠ [])
    (hnone : fs.get loc = none) : (fs.set loc obj).Solid dir := by
  intro p hp
  rcases h p hp with ⟨mode, hmode⟩
  rw [get_set _ _ hloc]
  split
  · rename_i heq
    rw [heq, hnone] at hmode
    cases hmode
  · exact ⟨mode, hmode⟩

/-- A file that is made where nothing was leaves the directories as they are. -/
theorem Solid.newFile {dir : Loc ν} {data : List UInt8} (h : fs.Solid dir) (hloc : loc ≠ [])
    (hnone : fs.get loc = none) : (fs.newFile loc data).Solid dir := by
  intro p hp
  rcases @Solid.set _ _ fs loc dir (.file fs.nextIno) h hloc hnone p hp with ⟨mode, hmode⟩
  exact ⟨mode, hmode⟩

/-- Permissions that are set leave a directory a directory. -/
theorem Solid.chmodAt {dir : Loc ν} {mode : Nat} (h : fs.Solid dir) :
    (fs.chmodAt loc mode).Solid dir := by
  intro p hp
  rcases @get_chmodAt _ _ fs loc mode p with hsame | ⟨_, -, hdir⟩
  · rw [hsame]
    exact h p hp
  · exact ⟨mode, hdir⟩

/-- The root is always there. -/
theorem ne_nil_of_get_eq_none (h : fs.get loc = none) : loc ≠ [] := by
  rintro rfl
  rw [get_nil] at h
  cases h

/-- A plain place stays plain when something that is no link is put there. -/
theorem Plain.set (obj : Obj ν) (h : fs.Plain loc) (hnone : fs.get loc = none)
    (hobj : ∀ text, obj ≠ .link text) : (fs.set loc obj).Plain loc := by
  have hloc := ne_nil_of_get_eq_none hnone
  refine ⟨h.1.set hloc hnone, fun text hlink => ?_⟩
  rw [get_set _ _ hloc, if_pos rfl] at hlink
  exact hobj text (Option.some.inj hlink)

theorem Plain.newFile {data : List UInt8} (h : fs.Plain loc) (hnone : fs.get loc = none) :
    (fs.newFile loc data).Plain loc :=
  h.set _ hnone fun _ => nofun

/-- A directory is made only where nothing was. -/
theorem createDir_ok {fs' : Fs ν} (h : fs.Plain loc)
    (hcall : (fs.createDir loc.path).1 = .ok ((), fs')) :
    fs.get loc = none ∧ fs' = fs.set loc (.dir 0o755) := by
  rw [createDir_plain h] at hcall
  cases hget : fs.get loc with
  | some obj => simp [hget] at hcall
  | none =>
      simp only [hget, Except.ok.injEq, Prod.mk.injEq, true_and] at hcall
      exact ⟨rfl, hcall.symm⟩

/-- A file that was written is a plain location: no link comes to stand there. -/
theorem writeFile_keeps_plain {fs' : Fs ν} {data : List UInt8} (h : fs.Plain loc)
    (hcall : (fs.writeFile loc.path data).1 = .ok ((), fs')) : fs'.Plain loc := by
  rw [writeFile_plain h] at hcall
  cases hget : fs.get loc with
  | none =>
      -- a new file
      simp only [hget, Except.ok.injEq, Prod.mk.injEq, true_and] at hcall
      subst hcall
      exact h.newFile hget
  | some obj =>
      cases obj with
      | dir | link => simp [hget] at hcall
      | file ino =>
          -- the content changes, the entry does not
          simp only [hget, Except.ok.injEq, Prod.mk.injEq, true_and] at hcall
          subst hcall
          exact h
      | special =>
          simp only [hget, Except.ok.injEq, Prod.mk.injEq, true_and] at hcall
          exact hcall ▸ h

end Fs

/-! ## Pre- and postconditions -/

section Triples

variable {ε ε' σ α β : Type}

/-- From a state with `P`, the program ends with `Q`, or fails with `E`. -/
def Triple (P : σ → Prop) (x : EStateM ε σ α) (Q : α → σ → Prop) (E : σ → Prop) : Prop :=
  ∀ s, P s →
    match x s with
    | .ok a s' => Q a s'
    | .error _ s' => E s'

namespace Triple

variable {P P' : σ → Prop} {Q Q' : α → σ → Prop} {R : β → σ → Prop} {E : σ → Prop}

theorem pure {a : α} (h : ∀ s, P s → Q a s) : Triple P (Pure.pure a : EStateM ε σ α) Q E :=
  h

theorem throw {e : ε} (h : ∀ s, P s → E s) :
    Triple P (MonadExcept.throw e : EStateM ε σ α) Q E :=
  h

/-- What one program ends in, the next one starts from; both may fail. -/
theorem bind {x : EStateM ε σ α} {f : α → EStateM ε σ β} (hx : Triple P x Q E)
    (hf : ∀ a, Triple (Q a) (f a) R E) : Triple P (x >>= f) R E := by
  intro s hs
  have hxs := hx s hs
  change match EStateM.bind x f s with
    | .ok b s' => R b s'
    | .error _ s' => E s'
  unfold EStateM.bind
  cases hrun : x s with
  | ok a s' =>
      rw [hrun] at hxs
      exact hf a s' hxs
  | error e s' =>
      rw [hrun] at hxs
      exact hxs

/-- The first program can only end with one value. -/
theorem bind_eq {x : EStateM ε σ α} {f : α → EStateM ε σ β} {a : α} {P' : σ → Prop}
    (hx : Triple P x (fun b s => b = a ∧ P' s) E) (hf : Triple P' (f a) R E) :
    Triple P (x >>= f) R E := by
  refine hx.bind fun b => ?_
  rintro s ⟨rfl, hs⟩
  exact hf s hs

/-- The first program fails. -/
theorem bind_fails {x : EStateM ε σ α} {f : α → EStateM ε σ β}
    (hx : Triple P x (fun _ _ => False) E) : Triple P (x >>= f) R E :=
  hx.bind fun _ _ h => h.elim

/-- A triple holds from a stronger precondition and for a weaker result. -/
theorem weaken {x : EStateM ε σ α} (hx : Triple P x Q E) (hP : ∀ s, P' s → P s)
    (hQ : ∀ a s, Q a s → Q' a s) : Triple P' x Q' E := by
  intro s hs
  have hxs := hx s (hP s hs)
  cases hrun : x s with
  | ok a s' =>
      rw [hrun] at hxs
      exact hQ a s' hxs
  | error e s' =>
      rw [hrun] at hxs
      exact hxs

/-- What holds after a failure may be weakened too. -/
theorem fails {E' : σ → Prop} {x : EStateM ε σ α} (hx : Triple P x Q E)
    (hE : ∀ s, E s → E' s) : Triple P x Q E' := by
  intro s hs
  have hxs := hx s hs
  cases hrun : x s with
  | ok a s' =>
      rw [hrun] at hxs
      exact hxs
  | error e s' =>
      rw [hrun] at hxs
      exact hE s' hxs

/-- Nothing is asked of the end. -/
theorem any {x : EStateM ε σ α} (hQ : ∀ a s, Q a s) (hE : ∀ s, E s) : Triple P x Q E := by
  intro s _
  cases x s with
  | ok a s' => exact hQ a s'
  | error e s' => exact hE s'

theorem map {x : EStateM ε σ α} {f : α → β} (hx : Triple P x (fun a s => R (f a) s) E) :
    Triple P (f <$> x) R E :=
  hx.bind fun _ => Triple.pure fun _ h => h

/-- The state that is read is the state. -/
theorem get :
    Triple P (MonadState.get : EStateM ε σ σ) (fun t s => t = s ∧ P s) E := by
  intro s hs
  exact ⟨rfl, hs⟩

/-- A program that runs from each of the facts runs from some of them. -/
theorem of_exists {ι : Type} {F : ι → σ → Prop} {x : EStateM ε σ α}
    (h : ∀ i, Triple (F i) x Q E) : Triple (fun s => ∃ i, F i s) x Q E := by
  rintro s ⟨i, hs⟩
  exact h i s hs

/-- A fact about the precondition may be used once and for all. -/
theorem of_fact {x : EStateM ε σ α} {fact : Prop} (h : fact → Triple P x Q E) :
    Triple (fun s => fact ∧ P s) x Q E := by
  rintro s ⟨hfact, hs⟩
  exact h hfact s hs

end Triple

/-- The program keeps `P`, also where it fails. -/
def Lasts (P : σ → Prop) (x : EStateM ε σ α) : Prop := Triple P x (fun _ => P) P

namespace Lasts

variable {P : σ → Prop}

theorem pure {a : α} : Lasts P (Pure.pure a : EStateM ε σ α) := fun _ h => h

/-- What lasts over two programs lasts over one after the other. -/
theorem bind {x : EStateM ε σ α} {f : α → EStateM ε σ β} (hx : Lasts P x)
    (hf : ∀ a, Lasts P (f a)) : Lasts P (x >>= f) :=
  Triple.bind hx hf

theorem map {x : EStateM ε σ α} {f : α → β} (hx : Lasts P x) : Lasts P (f <$> x) :=
  Triple.map hx

end Lasts

end Triples

/-! ## Contained programs -/

section Contained

variable {ν : Type} {root : Loc ν} {fault : Nat → Option Fault} {fs : Fs ν}

/-- The tree and the faults to come are these, and everything touched so far lies in the
root. -/
def Held (root : Loc ν) (fault : Nat → Option Fault) (fs : Fs ν) (os : Os ν) : Prop :=
  os.fs = fs ∧ os.fault = fault ∧ Inside root os.log

/-- Everything touched so far lies in the root. -/
def Contained (root : Loc ν) (os : Os ν) : Prop := Inside root os.log

theorem Held.contained {os : Os ν} (h : Held root fault fs os) : Contained root os := h.2.2

/-- A call that touches only the root keeps the log in the root. -/
theorem syscall_held {α : Type} {effect : Fs ν → CallEffect ν α}
    (h : Inside root (effect fs).2) :
    Triple (Held root fault fs) (syscall effect)
      (fun value os => ∃ fs', (effect fs).1 = .ok (value, fs') ∧ Held root fault fs' os)
      (Contained root) := by
  rintro os ⟨rfl, hfault, hlog⟩
  have hlog' : Inside root (os.log ++ (effect os.fs).2) := inside_append.mpr ⟨hlog, h⟩
  simp only [syscall]
  cases os.fault os.calls with
  | some fault => exact hlog'
  | none =>
      cases hcall : (effect os.fs).1 with
      | error errno => exact hlog'
      | ok result => exact ⟨result.2, rfl, rfl, hfault, hlog'⟩

/-- What a call that only looks sees, or the fault in its place. -/
theorem observe_cases {α : Type} (look : Fs ν → Except Errno α) {os : Os ν}
    (h : Held root fault fs os) :
    ∃ os', Held root fault fs os' ∧
      ((∃ fault : Fault, observe look os = .error fault.errno os') ∨
        observe look os = match look fs with
          | .ok value => .ok value os'
          | .error errno => .error errno os') := by
  rcases h with ⟨rfl, hfault, hlog⟩
  refine ⟨{ os with calls := os.calls + 1, log := os.log ++ [] }, ⟨rfl, hfault, ?_⟩, ?_⟩
  · exact inside_append.mpr ⟨hlog, inside_nil⟩
  · simp only [observe, syscall]
    cases os.fault os.calls with
    | some fault => exact .inl ⟨fault, rfl⟩
    | none =>
        refine .inr ?_
        cases look os.fs <;> rfl

/-- A look at a held tree answers what is there and changes nothing. -/
theorem observe_held {α : Type} {look : Fs ν → Except Errno α} :
    Triple (Held root fault fs) (observe look)
      (fun value os => look fs = .ok value ∧ Held root fault fs os) (Contained root) := by
  intro os hos
  rcases observe_cases look hos with ⟨os', hos', ⟨fault, hrun⟩ | hrun⟩
  · rw [hrun]
    exact hos'.contained
  · rw [hrun]
    cases hlook : look fs with
    | ok value => exact ⟨rfl, hos'⟩
    | error errno => exact hos'.contained

end Contained

/-! ## What is touched -/

section Touched

variable {ν α : Type} {P : Access ν → Prop} {fs : Fs ν}

/-- Everything touched so far is of this kind. -/
def Touched (P : Access ν → Prop) (os : Os ν) : Prop := ∀ access ∈ os.log, P access

/-- The same with the tree, whatever faults are to come. -/
def TouchedIn (P : Access ν → Prop) (fs : Fs ν) (os : Os ν) : Prop := os.fs = fs ∧ Touched P os

theorem TouchedIn.touched {os : Os ν} (h : TouchedIn P fs os) : Touched P os := h.2

/-- The accesses of a call are added to those before it. -/
theorem touched_append {os os' : Os ν} {accesses : List (Access ν)} (h : Touched P os)
    (hnew : ∀ access ∈ accesses, P access) (hlog : os'.log = os.log ++ accesses) :
    Touched P os' := by
  intro access hmem
  rw [hlog] at hmem
  rcases List.mem_append.mp hmem with hold | hmem
  · exact h access hold
  · exact hnew access hmem

/-- A call touches what its effect says, whether it fails or not. -/
theorem syscall_touched {effect : Fs ν → CallEffect ν α}
    (h : ∀ access ∈ (effect fs).2, P access) :
    Triple (TouchedIn P fs) (syscall effect)
      (fun value os => ∃ fs', (effect fs).1 = .ok (value, fs') ∧ TouchedIn P fs' os)
      (Touched P) := by
  rintro os ⟨rfl, htouched⟩
  simp only [syscall]
  cases os.fault os.calls with
  | some fault => exact touched_append htouched h rfl
  | none =>
      cases hcall : (effect os.fs).1 with
      | error errno => exact touched_append htouched h rfl
      | ok result => exact ⟨result.2, rfl, rfl, touched_append htouched h rfl⟩

/-- A look touches nothing. -/
theorem observe_touched {look : Fs ν → Except Errno α} :
    Triple (TouchedIn P fs) (observe look)
      (fun value os => look fs = .ok value ∧ TouchedIn P fs os) (Touched P) := by
  refine (syscall_touched (by simp)).weaken (fun _ hos => hos) ?_
  rintro value os ⟨fs', hlook, hos⟩
  cases hseen : look fs with
  | error errno => simp [hseen, Except.map] at hlook
  | ok seen =>
      simp only [hseen, Except.map, Except.ok.injEq, Prod.mk.injEq] at hlook
      obtain ⟨rfl, rfl⟩ := hlook
      exact ⟨rfl, hos⟩

/-- What was touched stays touched. -/
theorem syscall_lasts {effect : Fs ν → CallEffect ν α} :
    Lasts (fun os => ∃ access ∈ os.log, P access) (syscall effect) := by
  rintro os ⟨access, hmem, haccess⟩
  have hlasts : ∀ more, access ∈ os.log ++ more := fun more => List.mem_append_left more hmem
  simp only [syscall]
  cases os.fault os.calls with
  | some fault => exact ⟨access, hlasts _, haccess⟩
  | none =>
      cases (effect os.fs).1 with
      | error errno => exact ⟨access, hlasts _, haccess⟩
      | ok result => exact ⟨access, hlasts _, haccess⟩

end Touched

/-! ## Calm systems -/

section Calm

variable {ν : Type} {fs : Fs ν}

/-- The tree is this one, and the system has no faults to come. -/
def Calm (fs : Fs ν) (os : Os ν) : Prop := os.fs = fs ∧ ∀ n, os.fault n = none

/-- A call on a calm system does what it does to the tree. -/
theorem syscall_calm {α : Type} (effect : Fs ν → CallEffect ν α) :
    Triple (Calm fs) (syscall effect)
      (fun value os => ∃ fs', (effect fs).1 = .ok (value, fs') ∧ Calm fs' os)
      (fun os => (∃ errno, (effect fs).1 = .error errno) ∧ os.fs = fs) := by
  rintro os ⟨rfl, hfault⟩
  simp only [syscall, hfault]
  cases hcall : (effect os.fs).1 with
  | ok result => exact ⟨result.2, rfl, rfl, hfault⟩
  | error errno => exact ⟨⟨errno, rfl⟩, rfl⟩

end Calm

/-! ## Successful runs -/

section Runs

/-- A sequence that succeeds: its first part does, and the rest from there. -/
theorem bind_eq_ok_iff {ε σ α β : Type} {x : EStateM ε σ α} {f : α → EStateM ε σ β} {s s'' : σ}
    {b : β} : (x >>= f) s = .ok b s'' ↔ ∃ a s', x s = .ok a s' ∧ f a s' = .ok b s'' := by
  change EStateM.bind x f s = _ ↔ _
  unfold EStateM.bind
  cases x s <;> simp

/-- Behind a success the program goes on. -/
theorem bind_of_ok {ε σ α β : Type} {x : EStateM ε σ α} {f : α → EStateM ε σ β} {s s' : σ} {a : α}
    (h : x s = .ok a s') : (x >>= f) s = f a s' := by
  change EStateM.bind x f s = _
  rw [EStateM.bind, h]

/-- Behind a failure the program ends. -/
theorem bind_of_error {ε σ α β : Type} {x : EStateM ε σ α} {f : α → EStateM ε σ β} {s s' : σ}
    {e : ε} (h : x s = .error e s') : (x >>= f) s = .error e s' := by
  change EStateM.bind x f s = _
  rw [EStateM.bind, h]

theorem pure_eq_ok_iff {ε σ α : Type} {a b : α} {s s' : σ} :
    (pure a : EStateM ε σ α) s = .ok b s' ↔ a = b ∧ s = s' := by
  change EStateM.Result.ok a s = .ok b s' ↔ _
  simp

variable {ν α : Type}

/-- The system after a call that has left this tree. -/
def Os.after (os : Os ν) (fs : Fs ν) (accesses : List (Access ν)) : Os ν :=
  { os with fs, calls := os.calls + 1, log := os.log ++ accesses }

/-- A call succeeds exactly if it has no fault and its effect is a success. -/
theorem syscall_eq_ok_iff {effect : Fs ν → CallEffect ν α} {os os' : Os ν} {value : α} :
    syscall effect os = .ok value os' ↔
      os.fault os.calls = none ∧
        ∃ fs', (effect os.fs).1 = .ok (value, fs') ∧ os' = os.after fs' (effect os.fs).2 := by
  unfold syscall
  cases os.fault os.calls with
  | some fault => simp
  | none =>
      cases (effect os.fs).1 with
      | error errno => simp
      | ok result => simp [Os.after, Prod.ext_iff, and_assoc, eq_comm]

theorem syscall_of_ok {effect : Fs ν → CallEffect ν α} {os : Os ν} {value : α} {fs' : Fs ν}
    (hcalm : os.fault os.calls = none) (h : (effect os.fs).1 = .ok (value, fs')) :
    syscall effect os = .ok value (os.after fs' (effect os.fs).2) :=
  syscall_eq_ok_iff.mpr ⟨hcalm, fs', h, rfl⟩

/-- A call that the system fails to do, or that fails on the tree, leaves the tree. -/
theorem syscall_fails {effect : Fs ν → CallEffect ν α} {os : Os ν}
    (h : os.fault os.calls ≠ none ∨ ∃ errno, (effect os.fs).1 = .error errno) :
    ∃ errno, syscall effect os = .error errno (os.after os.fs (effect os.fs).2) := by
  unfold syscall
  cases hfault : os.fault os.calls with
  | some fault => exact ⟨fault.errno, by simp [Os.after]⟩
  | none =>
      obtain ⟨errno, herrno⟩ := h.resolve_left fun hne => hne hfault
      exact ⟨errno, by simp [herrno, Os.after]⟩

/-- A look fails by a fault, or because of what it looks at. -/
theorem observe_fails {look : Fs ν → Except Errno α} {os : Os ν}
    (h : os.fault os.calls ≠ none ∨ ∃ errno, look os.fs = .error errno) :
    ∃ errno, observe look os = .error errno (os.after os.fs []) := by
  refine syscall_fails (h.imp id ?_)
  rintro ⟨errno, herrno⟩
  exact ⟨errno, by simp [herrno, Except.map]⟩

/-- A look succeeds exactly if it has no fault and sees what it wants. -/
theorem observe_eq_ok_iff {look : Fs ν → Except Errno α} {os os' : Os ν} {value : α} :
    observe look os = .ok value os' ↔
      os.fault os.calls = none ∧ look os.fs = .ok value ∧ os' = os.after os.fs [] := by
  unfold observe
  rw [syscall_eq_ok_iff]
  cases look os.fs with
  | error errno => simp [Except.map]
  | ok seen => simp [Except.map, and_assoc]

end Runs

end Posix
