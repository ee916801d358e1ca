import Rssh.Lib.Syscall

/-!
# Open files, and calls on names

The calls that a file server makes besides those of `Syscall`: it opens files under the
options of `std::fs::OpenOptions`, works on what it has opened, and removes and renames
names. An open file remembers where it was opened; what is done to it counts as done there. A
`write_all` that fails has stored what it has written by then.

* `Fs.Leads`: whatever a path stands for lies in a directory.
* `openFile_leads` and its like: a call on a path that leads to a place in the directory
  touches nothing outside.
* `openFile_keeps`, `createDir_keeps`: after the call the path still does.
-/

namespace Posix

/-! ## Opening -/

/-- The options a file is opened with. -/
structure OpenOptions where
  read : Bool := false
  write : Bool := false
  append : Bool := false
  truncate : Bool := false
  create : Bool := false
  createNew : Bool := false
deriving DecidableEq, Repr

namespace OpenOptions

def writes (options : OpenOptions) : Bool := options.write || options.append

/-- The combinations that are not refused as such. -/
def valid (options : OpenOptions) : Bool :=
  (options.read || options.writes) &&
    (if options.append then !options.truncate || options.createNew
      else options.write || !(options.truncate || options.create || options.createNew))

/-- A link in the last place is followed, as it is without `O_EXCL`. -/
def followsLinks (options : OpenOptions) : Bool := options.valid && !options.createNew

/-- What is opened counts as read and written already. -/
def accesses {ν : Type} (options : OpenOptions) (loc : Loc ν) : List (Access ν) :=
  (if options.read then [⟨.read, loc⟩] else []) ++ (if options.writes then [⟨.write, loc⟩] else [])

end OpenOptions

/-- A file that is open: where and as what it was found. -/
structure OpenFile (ν : Type) where
  loc : Loc ν
  obj : Obj ν
  options : OpenOptions
deriving DecidableEq, Repr

variable {ν : Type} [DecidableEq ν]

namespace Fs

/-- What is there is opened. -/
def openObj (fs : Fs ν) (options : OpenOptions) (loc : Loc ν) :
    Obj ν → CallEffect ν (OpenFile ν)
  | .file ino =>
      (.ok (⟨loc, .file ino, options⟩,
        if options.truncate then fs.setInode ino { fs.inode ino with data := [] } else fs),
        options.accesses loc)
  | .dir mode =>
      if options.writes then (.error .isDirectory, [])
      else (.ok (⟨loc, .dir mode, options⟩, fs), options.accesses loc)
  | .link _ => (.error .tooManyLinks, [])
  | .special => (.ok (⟨loc, .special, options⟩, fs), options.accesses loc)

/-- `open`. With `O_EXCL` a link in the last place is not followed, and whatever is there is
an error. -/
def openFile (fs : Fs ν) (options : OpenOptions) (path : List (Seg ν)) :
    CallEffect ν (OpenFile ν) :=
  if options.valid then
    match fs.resolve (!options.createNew) path with
    | .failed errno => (.error errno, [])
    | .missing dir n =>
        if options.create || options.createNew then
          (.ok (⟨dir ++ [n], .file fs.nextIno, options⟩, fs.newFile (dir ++ [n]) []),
            ⟨.create, dir ++ [n]⟩ :: options.accesses (dir ++ [n]))
        else (.error .notFound, [])
    | .found loc =>
        match fs.get loc with
        | none => (.error .notFound, [])
        | some obj =>
            if options.createNew then (.error .exists_, []) else fs.openObj options loc obj
  else (.error .invalid, [])

/-! ## Open files -/

end Fs

/-- The largest offset and length of a file. -/
def maxOffset : Nat := 2 ^ 63 - 1

/-- `lseek` from the start. -/
def seek {ν : Type} (offset : Nat) : Sys ν Unit :=
  observe fun _ => if offset ≤ maxOffset then .ok () else .error .invalid

/-- The content cut off or filled up with zeros. -/
def resize (data : List UInt8) (size : Nat) : List UInt8 :=
  data.take size ++ List.replicate (size - data.length) 0

/-- The content with bytes written over it from a place on. -/
def overwrite (data : List UInt8) (start : Nat) (bytes : List UInt8) : List UInt8 :=
  resize data start ++ bytes ++ data.drop (start + bytes.length)

example : overwrite [1, 2] 3 [7] = [1, 2, 0, 7] := by decide

/-- Nothing is written over the content, but a place behind its end is reached with zeros. -/
theorem overwrite_nil_eq_iff {data : List UInt8} {start : Nat} :
    overwrite data start [] = data ↔ start ≤ data.length := by
  constructor
  · intro h
    have hlength := congrArg List.length h
    simp only [overwrite, resize, List.length_append, List.length_take, List.length_replicate,
      List.length_nil, List.length_drop] at hlength
    omega
  · intro h
    simp [overwrite, resize, Nat.sub_eq_zero_of_le h]

namespace Fs

section OpenFiles

omit [DecidableEq ν]

/-- `read` at an offset. What a special file would give is not in the tree. -/
def readAt (fs : Fs ν) (file : OpenFile ν) (offset length : Nat) : CallEffect ν (List UInt8) :=
  match file.obj with
  | .file ino =>
      if file.options.read then
        (.ok (((fs.inode ino).data.drop offset).take length, fs), [⟨.read, file.loc⟩])
      else (.error .other, [])
  | .dir _ => (.error .isDirectory, [])
  | .link _ => (.error .other, [])
  | .special => (.error .invalid, [⟨.read, file.loc⟩])

/-- `write` at an offset, or at the end if the file was opened to append, of all the bytes. -/
def writeAt (fs : Fs ν) (file : OpenFile ν) (offset : Nat) (bytes : List UInt8) :
    CallEffect ν Unit :=
  match file.obj with
  | .file ino =>
      if file.options.writes then
        let inode := fs.inode ino
        let start := if file.options.append then inode.data.length else offset
        (.ok ((), fs.setInode ino { inode with data := overwrite inode.data start bytes }),
          [⟨.write, file.loc⟩])
      else (.error .other, [])
  | .dir _ => (.error .other, [])
  | .link _ => (.error .other, [])
  | .special => (.ok ((), fs), [⟨.write, file.loc⟩])

/-- What a failed `write_all` leaves: the bytes are stored that were written before the failure, and
never all of them. -/
def writtenBefore (fs : Fs ν) (file : OpenFile ν) (offset : Nat) (bytes : List UInt8)
    (stored : Nat) : Fs ν :=
  let part := bytes.dropLast.take stored
  if part = [] then fs
  else
    match (fs.writeAt file offset part).1 with
    | .ok (_, fs') => fs'
    | .error _ => fs

/-- `ftruncate`. -/
def setLen (fs : Fs ν) (file : OpenFile ν) (size : Nat) : CallEffect ν Unit :=
  match file.obj with
  | .file ino =>
      if size ≤ maxOffset ∧ file.options.writes then
        let inode := fs.inode ino
        (.ok ((), fs.setInode ino { inode with data := resize inode.data size }),
          [⟨.write, file.loc⟩])
      else (.error .invalid, [])
  | .dir _ => (.error .invalid, [])
  | .link _ => (.error .invalid, [])
  | .special => (.error .invalid, [])

/-- `fstat`. A directory shows the mode it had when it was opened. -/
def fileAttributes (fs : Fs ν) (file : OpenFile ν) : CallEffect ν Metadata :=
  (.ok (fs.metadata file.obj, fs), [⟨.attributes, file.loc⟩])

end OpenFiles

end Fs

/-- `write_all` at an offset. It writes as often as it takes, and a fault ends it at any of these
writes. -/
def writeAll {ν : Type} (file : OpenFile ν) (offset : Nat) (bytes : List UInt8) : Sys ν Unit :=
  fun os =>
    match os.fault os.calls with
    | none => syscall (·.writeAt file offset bytes) os
    | some fault =>
        .error fault.errno (os.after
          (os.fs.writtenBefore file offset bytes (os.stored os.calls))
          (os.fs.writeAt file offset bytes).2)

section WriteAll

variable {file : OpenFile ν} {offset : Nat} {bytes : List UInt8} {os : Os ν}

omit [DecidableEq ν] in
theorem writeAll_of_calm (h : os.fault os.calls = none) :
    writeAll file offset bytes os = syscall (·.writeAt file offset bytes) os := by
  simp only [writeAll, h]

omit [DecidableEq ν] in
/-- With a fault it fails, and a part of the bytes may be stored. -/
theorem writeAll_of_fault {fault : Fault} (h : os.fault os.calls = some fault) :
    writeAll file offset bytes os = .error fault.errno
      (os.after (os.fs.writtenBefore file offset bytes (os.stored os.calls))
        (os.fs.writeAt file offset bytes).2) := by
  simp only [writeAll, h]

end WriteAll

namespace Fs

/-! ## Names -/

/-- `unlink`. -/
def removeFile (fs : Fs ν) (path : List (Seg ν)) : CallEffect ν Unit :=
  match fs.lookup false path with
  | .ok (loc, obj) =>
      if obj.isDir then (.error .isDirectory, []) else (.ok ((), fs.erase loc), [⟨.remove, loc⟩])
  | .error errno => (.error errno, [])

/-- `rmdir`. -/
def removeDir (fs : Fs ν) (path : List (Seg ν)) : CallEffect ν Unit :=
  match fs.lookup false path with
  | .ok (loc, obj) =>
      if obj.isDir then
        if fs.children loc = [] then (.ok ((), fs.erase loc), [⟨.remove, loc⟩])
        else (.error .notEmpty, [])
      else (.error .notDirectory, [])
  | .error errno => (.error errno, [])

/-- Everything at and below one location is moved to another, in place of what was there. -/
def move (fs : Fs ν) (old new : Loc ν) : Fs ν :=
  { fs with
    entries := (fs.entries.filter fun entry => ¬new <+: entry.1).map fun entry =>
      if old <+: entry.1 then (new ++ entry.1.drop old.length, entry.2) else entry }

/-- Whether one object may take the name of another. -/
def renameError (fs : Fs ν) (loc : Loc ν) (obj : Obj ν) (loc' : Loc ν) (obj' : Obj ν) :
    Option Errno :=
  if obj.isDir then
    if loc <+: loc' then some .invalid
    else if !obj'.isDir then some .notDirectory
    else if fs.children loc' = [] then none
    else some .notEmpty
  else if obj'.isDir then some .isDirectory
  else none

/-- `rename`. No link in a last place is followed, and two names of one file stay. -/
def rename (fs : Fs ν) (old new : List (Seg ν)) : CallEffect ν Unit :=
  match fs.lookup false old with
  | .error errno => (.error errno, [])
  | .ok (loc, obj) =>
      match fs.resolve false new with
      | .failed errno => (.error errno, [])
      | .missing dir n =>
          if obj.isDir ∧ loc <+: dir ++ [n] then (.error .invalid, [])
          else
            (.ok ((), fs.move loc (dir ++ [n])), [⟨.rename, loc⟩, ⟨.rename, dir ++ [n]⟩])
      | .found loc' =>
          match fs.get loc' with
          | none => (.error .notFound, [])
          | some obj' =>
              if loc' = loc ∨ obj.isFile ∧ obj' = obj then
                (.ok ((), fs), [⟨.rename, loc⟩, ⟨.rename, loc'⟩])
              else
                match fs.renameError loc obj loc' obj' with
                | some errno => (.error errno, [])
                | none => (.ok ((), fs.move loc loc'), [⟨.rename, loc⟩, ⟨.rename, loc'⟩])

/-! ## Where paths lead -/

/-- What the path stands for, or would stand for if it were there, lies in the directory. -/
def Leads (fs : Fs ν) (root : Loc ν) (follow : Bool) (path : List (Seg ν)) : Prop :=
  match fs.resolve follow path with
  | .found loc => root <+: loc
  | .missing dir n => root <+: dir ++ [n]
  | .failed _ => True

variable {fs : Fs ν} {root loc : Loc ν} {path : List (Seg ν)}

theorem Plain.leads (h : fs.Plain loc) (hroot : root <+: loc) (follow : Bool) :
    fs.Leads root follow loc.path := by
  rcases resolve_plain h follow with ⟨_, -, hres⟩ | ⟨_, _, rfl, -, hres⟩
  · simpa [Leads, hres] using hroot
  · simpa [Leads, hres] using hroot

/-- A name in a directory leads there, as long as it is not followed. -/
theorem Solid.leads {dir : Loc ν} {n : ν} (h : fs.Solid dir) (hroot : root <+: dir) :
    fs.Leads root false (dir ++ [n]).path := by
  have hroot' : root <+: dir ++ [n] := hroot.trans (List.prefix_append _ _)
  rcases @resolve_concat _ _ fs false dir n h with ⟨hmissing, hfound⟩
  cases hget : fs.get (dir ++ [n]) with
  | none => simpa [Leads, hmissing hget] using hroot'
  | some obj => simpa [Leads, hfound obj hget nofun] using hroot'

/-- A name below a canonical place of the directory leads there, unless it is a link that is
followed. -/
theorem Plain.leads_child {dir : Loc ν} {obj : Obj ν} (n : ν) (h : fs.Plain dir)
    (hget : fs.get dir = some obj) (hroot : root <+: dir) :
    fs.Leads root false (dir ++ [n]).path ∧
      (fs.Leads root true (dir ++ [n]).path ∨ ∃ text, fs.get (dir ++ [n]) = some (.link text)) := by
  have hroot' : root <+: dir ++ [n] := hroot.trans (List.prefix_append _ _)
  -- below a file there is nothing to lead to
  have hbelow : ((∃ ino, obj = .file ino) ∨ obj = .special) →
      ∀ follow, fs.Leads root follow (dir ++ [n]).path := by
    intro hfile follow
    rw [Leads, resolve_below follow h.1 hget hfile]
    trivial
  cases obj with
  | file ino => exact ⟨hbelow (.inl ⟨ino, rfl⟩) false, .inl (hbelow (.inl ⟨ino, rfl⟩) true)⟩
  | special => exact ⟨hbelow (.inr rfl) false, .inl (hbelow (.inr rfl) true)⟩
  | link text => exact absurd hget (h.2 text)
  | dir mode =>
      have hsolid := h.solid hget
      refine ⟨hsolid.leads hroot, ?_⟩
      -- below a directory only a link can lead elsewhere
      by_cases hlink : ∃ text, fs.get (dir ++ [n]) = some (.link text)
      · exact .inr hlink
      · have hplain := hsolid.concat_plain fun text htext => hlink ⟨text, htext⟩
        exact .inl (hplain.leads hroot' true)

theorem leads_congr {fs' : Fs ν} (hget : ∀ l, fs'.get l = fs.get l) {follow : Bool}
    (h : fs.Leads root follow path) : fs'.Leads root follow path := by
  rwa [Leads, resolve_congr hget]

/-- What is found on a path that leads into the root is inside it. -/
theorem lookup_leads {follow : Bool} {obj : Obj ν} (h : fs.Leads root follow path)
    (hlookup : fs.lookup follow path = .ok (loc, obj)) : root <+: loc := by
  simp only [lookup] at hlookup
  split at hlookup
  · rename_i hfound
    split at hlookup
    · cases hlookup
      rwa [Leads, hfound] at h
    · cases hlookup
  · cases hlookup
  · cases hlookup

/-! ## Calls on paths that lead to the directory -/

omit [DecidableEq ν] in
theorem accesses_inside (options : OpenOptions) (h : root <+: loc) :
    Inside root (options.accesses loc) := by
  refine inside_append.mpr ⟨?_, ?_⟩
  · split <;> simp [Inside, h]
  · split <;> simp [Inside, h]

/-- Attributes are read where the path leads. -/
theorem attributes_leads {follow : Bool} (h : fs.Leads root follow path) :
    Inside root (fs.attributes follow path).2 := by
  simp only [attributes]
  split
  · rename_i hlookup
    simpa [Inside] using lookup_leads h hlookup
  · exact inside_nil

/-- A directory is made where the path leads without its last link. -/
theorem createDir_leads (h : fs.Leads root false path) : Inside root (fs.createDir path).2 := by
  simp only [createDir]
  split
  · exact inside_nil
  · exact inside_nil
  · rename_i hmissing
    rw [Leads, hmissing] at h
    simpa [Inside] using h

/-- Permissions are set where the path leads with its last link. -/
theorem setPermissions_leads (h : fs.Leads root true path) (mode : Nat) :
    Inside root (fs.setPermissions path mode).2 := by
  simp only [setPermissions]
  split
  · rename_i hfound
    rw [Leads, hfound] at h
    simpa [Inside] using h
  · exact inside_nil
  · exact inside_nil

/-- A name is removed where it stands, link or not. -/
theorem removeFile_leads (h : fs.Leads root false path) : Inside root (fs.removeFile path).2 := by
  simp only [removeFile]
  split
  · rename_i hlookup
    split
    · exact inside_nil
    · simpa [Inside] using lookup_leads h hlookup
  · exact inside_nil

/-- A directory is removed where it stands. -/
theorem removeDir_leads (h : fs.Leads root false path) : Inside root (fs.removeDir path).2 := by
  simp only [removeDir]
  split
  · rename_i hlookup
    split
    · split
      · simpa [Inside] using lookup_leads h hlookup
      · exact inside_nil
    · exact inside_nil
  · exact inside_nil

/-- A rename touches the two names, and follows no link at either of them. -/
theorem rename_leads {new : List (Seg ν)} (h : fs.Leads root false path)
    (hnew : fs.Leads root false new) : Inside root (fs.rename path new).2 := by
  simp only [rename]
  split
  · exact inside_nil
  · rename_i loc obj hlookup
    have hloc := lookup_leads h hlookup
    split
    · exact inside_nil
    · rename_i hmissing
      -- the new name is free
      rw [Leads, hmissing] at hnew
      split
      · exact inside_nil
      · simp [Inside, hloc, hnew]
    · rename_i hfound
      -- the new name is taken over
      rw [Leads, hfound] at hnew
      split
      · exact inside_nil
      · split
        · simp [Inside, hloc, hnew]
        · split
          · exact inside_nil
          · simp [Inside, hloc, hnew]

/-- What an opening touches lies in the directory, and so does what is opened. -/
def Opens (root : Loc ν) (effect : CallEffect ν (OpenFile ν)) : Prop :=
  Inside root effect.2 ∧ ∀ file fs', effect.1 = .ok (file, fs') → root <+: file.loc

omit [DecidableEq ν] in
theorem opens_error (errno : Errno) : Opens root ((.error errno, []) : CallEffect ν _) := by
  refine ⟨inside_nil, fun file fs' h => ?_⟩
  cases h

omit [DecidableEq ν] in
/-- What is opened at a location inside the root stays there. -/
theorem openObj_opens (options : OpenOptions) (h : root <+: loc) (obj : Obj ν) :
    Opens root (fs.openObj options loc obj) := by
  have hopens : ∀ obj fs₁, Opens root
      ((.ok (⟨loc, obj, options⟩, fs₁), options.accesses loc) : CallEffect ν _) := by
    refine fun obj fs₁ => ⟨accesses_inside options h, fun file fs' heq => ?_⟩
    cases heq
    exact h
  cases obj with
  | file | special => exact hopens _ _
  | link => exact opens_error _
  | dir =>
      simp only [openObj]
      split
      · exact opens_error _
      · exact hopens _ _

/-- Opening touches what the path leads to, and that is what is opened. -/
theorem openFile_leads {options : OpenOptions} (h : fs.Leads root options.followsLinks path) :
    Opens root (fs.openFile options path) := by
  simp only [openFile]
  split
  · rename_i hvalid
    rw [OpenOptions.followsLinks, hvalid, Bool.true_and] at h
    split
    · exact opens_error _
    · rename_i hmissing
      -- the open creates what is missing
      rw [Leads, hmissing] at h
      split
      · refine ⟨List.forall_mem_cons.mpr ⟨h, accesses_inside options h⟩, fun file fs' heq => ?_⟩
        cases heq
        exact h
      · exact opens_error _
    · rename_i loc hfound
      -- it opens what was found
      rw [Leads, hfound] at h
      split
      · exact opens_error _
      · split
        · exact opens_error _
        · exact openObj_opens options h _
  · exact opens_error _

/-- A path that misses a place leads there when something that is no link is put in it. -/
theorem leads_of_missing {fs' : Fs ν} {dir : Loc ν} {n : ν} (obj : Obj ν) {follow : Bool}
    (hmissing : fs.resolve follow path = .missing dir n) (hroot : root <+: dir ++ [n])
    (hobj : ∀ text, obj ≠ .link text)
    (hget : ∀ l, fs'.get l = if l = dir ++ [n] then some obj else fs.get l) :
    fs'.Leads root true path := by
  have hends := @resolve_ends _ _ fs follow path
  rw [hmissing] at hends
  have hfollowed : fs.resolve true path = .missing dir n := by
    cases follow with
    | true => exact hmissing
    | false =>
        rw [← hmissing]
        refine resolve_follow fun loc text hloc => ?_
        cases hmissing.symm.trans hloc
  have hfound : fs'.resolve true path = .found (dir ++ [n]) :=
    resolveFrom_extend hget hends.2 hobj hfollowed rfl
  rwa [Leads, hfound]

/-- A path at which a directory was made leads there. -/
theorem createDir_keeps {fs' : Fs ν} (h : fs.Leads root false path)
    (hcall : (fs.createDir path).1 = .ok ((), fs')) : fs'.Leads root true path := by
  simp only [createDir] at hcall
  split at hcall
  · cases hcall
  · cases hcall
  · rename_i dir n hmissing
    cases hcall
    rw [Leads, hmissing] at h
    exact leads_of_missing (.dir 0o755) hmissing h (by simp) fun l =>
      get_set _ _ (by simp)

/-- Once it was opened, a path leads to its file also with its last link followed. -/
theorem openFile_keeps {options : OpenOptions} {file : OpenFile ν} {fs' : Fs ν}
    (h : fs.Leads root options.followsLinks path)
    (hcall : (fs.openFile options path).1 = .ok (file, fs')) : fs'.Leads root true path := by
  simp only [openFile] at hcall
  split at hcall
  · rename_i hvalid
    rw [OpenOptions.followsLinks, hvalid, Bool.true_and] at h
    split at hcall
    · cases hcall
    · rename_i dir n hmissing
      split at hcall
      · cases hcall
        -- the file was just made where the path leads
        rw [Leads, hmissing] at h
        exact leads_of_missing (.file fs.nextIno) hmissing h (fun _ => nofun) fun l =>
          get_newFile (by simp) l
      · cases hcall
    · rename_i loc hfound
      split at hcall
      · cases hcall
      · rename_i obj hget
        split at hcall
        · cases hcall
        · rename_i hnew
          -- the object was there: an open that wants a new one would have failed
          have hfollow : fs.Leads root true path := by simpa [hnew] using h
          cases obj with
          | link => cases hcall
          | special =>
              cases hcall
              exact hfollow
          | file ino =>
              cases hcall
              split
              · -- truncation changes the content alone
                refine leads_congr (fun l => ?_) hfollow
                exact get_setInode ino _ l
              · exact hfollow
          | dir =>
              simp only [openObj] at hcall
              split at hcall
              · cases hcall
              · cases hcall
                exact hfollow
  · cases hcall

omit [DecidableEq ν] in
/-- A read touches the open file alone. -/
theorem readAt_inside {file : OpenFile ν} (h : root <+: file.loc) (offset length : Nat) :
    Inside root (fs.readAt file offset length).2 := by
  simp only [readAt]
  split
  · split
    · simpa [Inside] using h
    · exact inside_nil
  · exact inside_nil
  · exact inside_nil
  · simpa [Inside] using h

omit [DecidableEq ν] in
/-- A write touches the open file alone. -/
theorem writeAt_inside {file : OpenFile ν} (h : root <+: file.loc) (offset : Nat)
    (bytes : List UInt8) : Inside root (fs.writeAt file offset bytes).2 := by
  simp only [writeAt]
  split
  · split
    · simpa [Inside] using h
    · exact inside_nil
  · exact inside_nil
  · exact inside_nil
  · simpa [Inside] using h

omit [DecidableEq ν] in
/-- A change of the length touches the open file alone. -/
theorem setLen_inside {file : OpenFile ν} (h : root <+: file.loc) (size : Nat) :
    Inside root (fs.setLen file size).2 := by
  simp only [setLen]
  split
  · split
    · simpa [Inside] using h
    · exact inside_nil
  all_goals exact inside_nil

omit [DecidableEq ν] in
theorem fileAttributes_inside {file : OpenFile ν} (h : root <+: file.loc) :
    Inside root (fs.fileAttributes file).2 := by
  simpa [fileAttributes, Inside] using h

omit [DecidableEq ν] in
/-- A failed `write_all` touches nothing else than one that succeeds. -/
theorem writeAll_held {file : OpenFile ν} {fault : Nat → Option Fault} (h : root <+: file.loc)
    (offset : Nat) (bytes : List UInt8) :
    Triple (Held root fault fs) (writeAll file offset bytes)
      (fun _ os => ∃ fs', (fs.writeAt file offset bytes).1 = .ok ((), fs') ∧
        Held root fault fs' os)
      (Contained root) := by
  intro os hos
  have hinside : Inside root (fs.writeAt file offset bytes).2 := writeAt_inside h offset bytes
  cases hfault : os.fault os.calls with
  | none =>
      rw [writeAll_of_calm hfault]
      exact syscall_held hinside os hos
  | some fault =>
      obtain ⟨rfl, -, hlog⟩ := hos
      rw [writeAll_of_fault hfault]
      exact inside_append.mpr ⟨hlog, hinside⟩

/-- Cutting a file changes no place. -/
theorem setLen_keeps {file : OpenFile ν} {size : Nat} {fs' : Fs ν}
    (hcall : (fs.setLen file size).1 = .ok ((), fs')) (loc : Loc ν) :
    fs'.get loc = fs.get loc := by
  simp only [setLen] at hcall
  split at hcall
  · split at hcall
    · cases hcall
      rfl
    · cases hcall
  all_goals cases hcall

end Fs

end Posix
