import Rssh.Transfer.Wire

/-!
# The SCP sink

`receiveSink` prepares its target, acknowledges, and handles one record after the other
until the input ends. The directories that are open are the current one and those above
it, so there is always one; the forced file is the target when it is not a directory.

* `receiveSink_contained`: whatever the records, the target and the links in the tree, every
  location created, written or given permissions lies in the root.
-/

namespace Rssh.Scp

open Posix

/-- A request, without its direction. -/
structure ScpRequest where
  recursive : Bool := false
  preserveTimes : Bool := false
  targetIsDirectory : Bool := false
  target : List Char
deriving DecidableEq, Repr

/-- The path that a request asks for. -/
def targetPath {ν : Type} (N : OsNames ν) (root : Loc ν) (request : ScpRequest) : List (Seg ν) :=
  root.path ++ (RelPath.ofText N request.target).segs

structure SinkTarget (ν : Type) where
  directory : Loc ν
  forcedFile : Option (Loc ν)
deriving DecidableEq, Repr

variable {ν : Type} [DecidableEq ν]

/-! ## Where to create -/

/-- `Path::parent` of an absolute path without `.` and `..`. -/
def locParent? (loc : Loc ν) : Option (Loc ν) := if loc = [] then none else some loc.dropLast

/-- `child_relative`. -/
def childRelative (N : OsNames ν) (root directory : Loc ν) (name : List Char) :
    Option (RelPath ν) :=
  match portableControlName name with
  | none => none
  | some name =>
      if root <+: directory then
        some (RelPath.ofNames (directory.drop root.length ++ [N.ofText name]))
      else none

/-- `resolve_for_create`. -/
def resolveForCreate (root : Loc ν) (relative : RelPath ν) : FsM ν (Loc ν) := do
  require (validateRelative relative = true)
  let joined := root.path ++ relative.segs
  let parent ← orReject (parent? joined)
  let canonicalParent ← fsCall (observe (·.canonicalize parent))
  require (root <+: canonicalParent)
  let name ← orReject (fileName? joined)
  let candidate := canonicalParent ++ [name]
  match ← fsTry (observe (·.lookup false candidate.path)) with
  | .ok (_, .link _) => reject
  | .ok (_, .file _) | .ok (_, .dir _) | .ok (_, .special) =>
      let canonical ← fsCall (observe (·.canonicalize candidate.path))
      require (root <+: canonical)
      pure canonical
  | .error errno => if errno = .notFound then pure candidate else reject

/-- The kind of what a path leads to, where every error is a no. -/
def kindIs (kind : Obj ν → Bool) (path : List (Seg ν)) : FsM ν Bool := do
  match ← fsTry (observe (·.lookup true path)) with
  | .ok (_, obj) => pure (kind obj)
  | .error _ => pure false

/-- `Path::is_dir`. -/
def isDir (path : List (Seg ν)) : FsM ν Bool := kindIs Obj.isDir path

/-- `Path::is_file`. -/
def isFile (path : List (Seg ν)) : FsM ν Bool := kindIs Obj.isFile path

/-- The target exists. -/
def existingTarget (root : Loc ν) (request : ScpRequest) (joined : List (Seg ν)) :
    FsM ν (SinkTarget ν) := do
  let canonical ← fsCall (observe (·.canonicalize joined))
  require (root <+: canonical)
  if ← isDir canonical.path then
    pure ⟨canonical, none⟩
  else if ← isFile canonical.path then
    require (request.targetIsDirectory = false)
    let directory ← orReject (locParent? canonical)
    pure ⟨directory, some canonical⟩
  else
    reject

/-- The target is missing. -/
def missingTarget (root : Loc ν) (request : ScpRequest) (target : RelPath ν) :
    FsM ν (SinkTarget ν) := do
  let created ← resolveForCreate root target
  if request.targetIsDirectory then
    fsCall (syscall (·.createDir created.path))
    let directory ← fsCall (observe (·.canonicalize created.path))
    pure ⟨directory, none⟩
  else
    let directory ← orReject (locParent? created)
    pure ⟨directory, some created⟩

/-- `resolve_sink_target`. -/
def resolveSinkTarget (N : OsNames ν) (root : Loc ν) (request : ScpRequest) :
    FsM ν (SinkTarget ν) := do
  let target := RelPath.ofText N request.target
  require (validateRelative target = true)
  let joined := root.path ++ target.segs
  match ← fsTry (observe (·.lookup false joined)) with
  | .ok (_, .link _) => reject
  | .ok (_, .file _) | .ok (_, .dir _) | .ok (_, .special) => existingTarget root request joined
  | .error errno =>
      if errno = .notFound then missingTarget root request target else reject

/-- `apply_permissions`. -/
def applyPermissions (path : Loc ν) (mode : Nat) : FsM ν Unit :=
  fsCall (syscall (·.setPermissions path.path (mode &&& 0o777)))

/-! ## The loop -/

/-- Where the loop stands: the directories that are open, and the forced file while it is
unwritten. -/
structure Sink (ν : Type) where
  current : Loc ν
  above : List (Loc ν) := []
  forcedFile : Option (Loc ν) := none
deriving DecidableEq, Repr

omit [DecidableEq ν] in
/-- `directories.len()`. -/
def Sink.depth (sink : Sink ν) : Nat := sink.above.length + 1

/-- The place of a new child of the current directory. -/
def createChild (N : OsNames ν) (root directory : Loc ν) (name : List Char) : FsM ν (Loc ν) := do
  let relative ← orReject (childRelative N root directory name)
  resolveForCreate root relative

omit [DecidableEq ν] in
/-- A `T` record. -/
def receiveTimes (line : List UInt8) (sink : Sink ν) : ScpM ν (Sink ν) := do
  require (parseTimes line = true)
  sendAck
  pure sink

/-- A `D` record. -/
def receiveDirectory (N : OsNames ν) (root : Loc ν) (request : ScpRequest) (line : List UInt8)
    (sink : Sink ν) : ScpM ν (Sink ν) := do
  require (sink.forcedFile = none ∧ request.recursive = true ∧ sink.depth < maxRecursionDepth)
  let control ← orReject (parseControl line 68)
  require (control.size = 0)
  let path ← onFs (createChild N root sink.current control.name)
  onFs (fsCall (syscall (·.createDir path.path)))
  onFs (applyPermissions path control.mode)
  let directory ← onFs (fsCall (observe (·.canonicalize path.path)))
  sendAck
  pure { sink with current := directory, above := sink.current :: sink.above }

omit [DecidableEq ν] in
/-- An `E` record. -/
def receiveEnd (sink : Sink ν) : ScpM ν (Sink ν) :=
  match sink.above with
  | [] => reject
  | directory :: above => do
      sendAck
      pure { sink with current := directory, above }

/-- Where a `C` record goes: to the forced file, or to a child of the current directory. -/
def filePath (N : OsNames ν) (root : Loc ν) (sink : Sink ν) (name : List Char) : FsM ν (Loc ν) :=
  match sink.forcedFile with
  | some path => pure path
  | none => createChild N root sink.current name

/-- A `C` record. -/
def receiveFile (N : OsNames ν) (root : Loc ν) (line : List UInt8) (sink : Sink ν) :
    ScpM ν (Sink ν) := do
  let control ← orReject (parseControl line 67)
  require (control.size ≤ maxFileSize)
  let name ← orReject (portableControlName control.name)
  let path ← onFs (filePath N root sink name)
  sendAck
  let data ← onWire (ScpWire.readExact [] control.size)
  expectAck
  onFs (fsCall (syscall (·.writeFile path.path data)))
  onFs (applyPermissions path control.mode)
  sendAck
  pure { sink with forcedFile := none }

/-- One record, whose line has been read. -/
def receiveRecord (N : OsNames ν) (root : Loc ν) (request : ScpRequest) (line : List UInt8)
    (sink : Sink ν) : ScpM ν (Sink ν) :=
  if line.head? = some 84 then receiveTimes line sink
  else if line.head? = some 68 then receiveDirectory N root request line sink
  else if line = [69, 10] then receiveEnd sink
  else if line.head? = some 67 then receiveFile N root line sink
  else reject

/-- The end of the input is where no directory is open but the target, no control line is
cut, and the forced file is written. -/
def sinkDone (sink : Sink ν) (wire : ScpWire) : Prop :=
  sink.above = [] ∧ wire.endOfInput = true ∧ wire.incompleteControl = false ∧
    sink.forcedFile = none

instance (sink : Sink ν) (wire : ScpWire) : Decidable (sinkDone sink wire) :=
  inferInstanceAs (Decidable (_ ∧ _ ∧ _ ∧ _))

/-- One turn of the loop: the sink after a record, or nothing at the end. -/
def sinkTurn (N : OsNames ν) (root : Loc ν) (request : ScpRequest) (sink : Sink ν) :
    ScpM ν (Option (Sink ν)) := do
  match ← tryWire ScpWire.readLine with
  | .ok line => some <$> receiveRecord N root request line sink
  | .error _ =>
      let w ← get
      require (sinkDone sink w.wire)
      pure none

/-- The loop. Every turn takes a byte off the stream, which bounds the turns. -/
def sinkLoop (N : OsNames ν) (root : Loc ν) (request : ScpRequest) : Nat → Sink ν → ScpM ν Unit
  | 0, _ => reject
  | turns + 1, sink => do
      match ← sinkTurn N root request sink with
      | none => pure ()
      | some sink => sinkLoop N root request turns sink

/-- `receive_sink`. -/
def receiveSink (N : OsNames ν) (root : Loc ν) (request : ScpRequest) : ScpM ν Unit := do
  let target ← onFs (resolveSinkTarget N root request)
  sendAck
  let w ← get
  sinkLoop N root request (w.wire.remaining.length + 1)
    { current := target.directory, forcedFile := target.forcedFile }

/-! ## Containment -/

/-- A location in the root that its plain names lead to. -/
def Sheltered (root : Loc ν) (fs : Fs ν) (loc : Loc ν) : Prop := root <+: loc ∧ fs.Plain loc

/-- A name in a directory of the root, which is no link. -/
structure ChildPlace (root : Loc ν) (fs : Fs ν) (loc : Loc ν) : Prop where
  ne_nil : loc ≠ []
  prefix_dropLast : root <+: loc.dropLast
  plain : fs.Plain loc

omit [DecidableEq ν] in
theorem prefix_of_prefix_dropLast {root loc : Loc ν} (h : root <+: loc.dropLast) :
    root <+: loc :=
  h.trans (List.dropLast_prefix _)

theorem ChildPlace.sheltered {root : Loc ν} {fs : Fs ν} {loc : Loc ν}
    (h : ChildPlace root fs loc) : Sheltered root fs loc :=
  ⟨prefix_of_prefix_dropLast h.prefix_dropLast, h.plain⟩

section Containment

variable {root : Loc ν} {fault : Nat → Option Fault} {fs : Fs ν}

/-- What `resolve_for_create` hands out is a place for a child: its parent is inside the root and
the name itself is no link. Nothing is changed on the way. -/
theorem resolveForCreate_held (relative : RelPath ν) :
    Triple (Held root fault fs) (resolveForCreate root relative)
      (fun loc os => ChildPlace root fs loc ∧ Held root fault fs os) (Contained root) := by
  -- each check but the ones of the name only refuses
  refine (require_triple fun _ => Held.contained).bind fun _ => .of_fact fun _ => ?_
  refine (orReject_triple fun _ => Held.contained).bind fun parent => .of_fact fun _ => ?_
  refine (fsCall_triple observe_held).bind fun canonicalParent => .of_fact fun hparent => ?_
  refine (require_triple fun _ => Held.contained).bind fun _ => .of_fact fun hroot => ?_
  refine (orReject_triple fun _ => Held.contained).bind fun name => .of_fact fun _ => ?_
  refine fsTry_observe_held.bind fun result => .of_fact fun hresult => ?_
  rcases Fs.canonicalize_ok hparent with ⟨hplain, obj, hget⟩
  -- all that is left to show of the name is that no link stands there
  have hchild : fs.Solid canonicalParent →
      (∀ text, fs.get (canonicalParent ++ [name]) ≠ some (.link text)) →
      ChildPlace root fs (canonicalParent ++ [name]) := by
    intro hsolid hlink
    refine ⟨by simp, ?_, hsolid.concat_plain hlink⟩
    rwa [List.dropLast_concat]
  rcases result with errno | ⟨loc, found⟩
  · -- only a name that is really missing is free
    by_cases herrno : errno = .notFound
    · subst herrno
      refine Triple.pure fun os hos => ⟨?_, hos⟩
      -- a fault is never the error for a missing name
      rcases hresult with hmissing | ⟨fault, hfault⟩
      · rcases Fs.lookup_concat name hplain hget with ⟨hsolid, hlookup⟩ | hlookup
        · refine hchild hsolid fun text hlink => ?_
          rw [hlookup, hlink] at hmissing
          cases hmissing
        · rw [hlookup] at hmissing
          cases hmissing
      · cases fault <;> cases hfault
    · simp only [herrno, if_false]
      exact reject_triple fun _ => Held.contained
  · -- a name that exists may be used unless it is a link
    have hexisting : (∀ text, found ≠ .link text) → Triple (Held root fault fs)
        (do
          let canonical ← fsCall (observe (·.canonicalize (Loc.path (canonicalParent ++ [name]))))
          require (root <+: canonical)
          pure canonical)
        (fun loc os => ChildPlace root fs loc ∧ Held root fault fs os) (Contained root) := by
      intro hnolink
      refine (fsCall_triple observe_held).bind fun canonical => .of_fact fun hcanonical => ?_
      refine (require_triple fun _ => Held.contained).bind fun _ => .of_fact fun _ => ?_
      refine .pure fun os hos => ⟨?_, hos⟩
      rcases hresult with hfound | ⟨fault, hfault⟩
      · rcases Fs.lookup_concat name hplain hget with ⟨hsolid, hlookup⟩ | hlookup
        · rw [hlookup] at hfound
          cases hobj : fs.get (canonicalParent ++ [name]) with
          | none =>
              rw [hobj] at hfound
              cases hfound
          | some obj =>
              rw [hobj] at hfound
              cases hfound
              -- canonicalized, the name stays what it is
              have hplace := hchild hsolid fun text hlink => by
                rw [hobj] at hlink
                exact hnolink text (Option.some.inj hlink)
              rw [Fs.canonicalize_plain hplace.plain hobj] at hcanonical
              exact Except.ok.inj hcanonical ▸ hplace
        · rw [hlookup] at hfound
          cases hfound
      · cases hfault
    cases found with
    | link text => exact reject_triple fun _ => Held.contained
    | file ino | dir mode | special => exact hexisting fun _ => nofun

/-- A child is created where `resolve_for_create` says. -/
theorem createChild_held (N : OsNames ν) (directory : Loc ν) (name : List Char) :
    Triple (Held root fault fs) (createChild N root directory name)
      (fun loc os => ChildPlace root fs loc ∧ Held root fault fs os) (Contained root) :=
  (orReject_triple fun _ => Held.contained).bind fun relative =>
    .of_fact fun _ => resolveForCreate_held relative

/-- What a resolved target promises: its directory is one of the root, as long as the root
was a directory. -/
structure Prepared (root : Loc ν) (fs fs' : Fs ν) (target : SinkTarget ν) : Prop where
  forced : ∀ loc, target.forcedFile = some loc → Sheltered root fs' loc
  directory : fs.Solid root → root <+: target.directory ∧ fs'.Solid target.directory

/-- A question for the kind of an object is answered by what stands there, or with no. -/
theorem kindIs_held (kind : Obj ν → Bool) {path : Loc ν} {obj : Obj ν} (hplain : fs.Plain path)
    (hget : fs.get path = some obj) :
    Triple (Held root fault fs) (kindIs kind path.path)
      (fun answer os => (answer = true → kind obj = true) ∧ Held root fault fs os)
      (Contained root) := by
  refine fsTry_observe_held.bind fun result => .of_fact fun hresult => ?_
  cases result with
  | error errno => exact .pure fun _ hos => ⟨nofun, hos⟩
  | ok found =>
      refine .pure fun _ hos => ⟨fun hkind => ?_, hos⟩
      rcases hresult with hfound | ⟨fault, hfault⟩
      · rw [Fs.lookup_plain hplain, hget] at hfound
        cases hfound
        exact hkind
      · cases hfault

omit [DecidableEq ν] in
/-- The root holds the parent of all that is in it but of itself. -/
theorem prefix_dropLast_of_ne {root loc : Loc ν} (h : root <+: loc) (hne : root ≠ loc) :
    root <+: loc.dropLast := by
  rcases List.eq_nil_or_concat loc with rfl | ⟨dir, n, rfl⟩
  · exact absurd (List.prefix_nil.mp h) hne
  · rw [List.concat_eq_append] at h hne ⊢
    rw [List.dropLast_concat]
    exact (List.prefix_concat_iff.mp h).resolve_left hne

/-- A target that exists is taken as it is: a directory inside the root, or a file with its parent.
-/
theorem existingTarget_held (request : ScpRequest) (joined : List (Seg ν)) :
    Triple (Held root fault fs) (existingTarget root request joined)
      (fun target os => ∃ fs', Prepared root fs fs' target ∧ Held root fault fs' os)
      (Contained root) := by
  -- the path is resolved first, and has to end up inside the root
  refine (fsCall_triple observe_held).bind fun canonical => .of_fact fun hcanonical => ?_
  refine (require_triple fun _ => Held.contained).bind fun _ => .of_fact fun hroot => ?_
  rcases Fs.canonicalize_ok hcanonical with ⟨hplain, obj, hget⟩
  refine (kindIs_held Obj.isDir hplain hget).bind fun directory => .of_fact fun hdir => ?_
  split
  · rename_i hyes
    refine .pure fun os hos => ⟨fs, ⟨nofun, fun _ => ⟨hroot, ?_⟩⟩, hos⟩
    -- a directory becomes the current one of the sink
    cases obj with
    | dir mode => exact hplain.solid hget
    | file | link | special => cases hdir hyes
  · refine (kindIs_held Obj.isFile hplain hget).bind fun file => .of_fact fun hfile => ?_
    split
    · rename_i hyes
      refine (require_triple fun _ => Held.contained).bind fun _ => .of_fact fun _ => ?_
      refine (orReject_triple fun _ => Held.contained).bind fun parent => ?_
      refine .of_fact fun hparent => .pure fun os hos => ⟨fs, ⟨?_, fun hsolid => ?_⟩, hos⟩
      · -- the file is forced, and its parent is current
        rintro loc ⟨⟩
        exact ⟨hroot, hplain⟩
      · -- a file is not the root itself
        have hne : root ≠ canonical := by
          rintro rfl
          rcases hsolid.get with ⟨mode, hmode⟩
          rw [hget] at hmode
          cases hmode
          cases hfile hyes
        simp only [locParent?] at hparent
        split at hparent <;> cases hparent
        exact ⟨prefix_dropLast_of_ne hroot hne, hplain.1⟩
    · exact reject_triple fun _ => Held.contained

/-- A target that is missing is made as a directory, or named as the file to come. -/
theorem missingTarget_held (request : ScpRequest) (target : RelPath ν) :
    Triple (Held root fault fs) (missingTarget root request target)
      (fun target os => ∃ fs', Prepared root fs fs' target ∧ Held root fault fs' os)
      (Contained root) := by
  refine (resolveForCreate_held target).bind fun created => .of_fact fun hcreated => ?_
  have hroot := hcreated.sheltered.1
  split
  · -- the new directory has no link above it, so its canonical path is its own
    have hinside := Fs.createDir_inside hcreated.plain hroot
    refine (fsCall_triple (syscall_held hinside)).bind fun _ => .of_exists fun fs' => ?_
    refine .of_fact fun hmade => ?_
    refine (fsCall_triple observe_held).bind fun directory => .of_fact fun hcanonical => ?_
    refine .pure fun os hos => ⟨fs', ⟨nofun, fun _ => ?_⟩, hos⟩
    rcases Fs.createDir_ok hcreated.plain hmade with ⟨hnone, rfl⟩
    have hplain := hcreated.plain.set (.dir 0o755) hnone fun _ => nofun
    have hget : (fs.set created (.dir 0o755)).get created = some (.dir 0o755) := by
      rw [Fs.get_set _ _ hcreated.ne_nil, if_pos rfl]
    rw [Fs.canonicalize_plain hplain hget] at hcanonical
    cases hcanonical
    exact ⟨hroot, hplain.solid hget⟩
  · -- the file is forced: nothing is made yet
    refine (orReject_triple fun _ => Held.contained).bind fun parent => ?_
    refine .of_fact fun hparent => .pure fun os hos => ⟨fs, ⟨?_, fun _ => ?_⟩, hos⟩
    · rintro loc ⟨⟩
      exact hcreated.sheltered
    · simp only [locParent?, hcreated.ne_nil, if_false, Option.some.injEq] at hparent
      subst hparent
      exact ⟨hcreated.prefix_dropLast, hcreated.plain.1⟩

/-- However the target is chosen, it is inside the root. -/
theorem resolveSinkTarget_held (N : OsNames ν) (request : ScpRequest) :
    Triple (Held root fault fs) (resolveSinkTarget N root request)
      (fun target os => ∃ fs', Prepared root fs fs' target ∧ Held root fault fs' os)
      (Contained root) := by
  refine (require_triple fun _ => Held.contained).bind fun _ => .of_fact fun _ => ?_
  refine fsTry_observe_held.bind fun result => .of_fact fun _ => ?_
  rcases result with errno | ⟨loc, obj⟩
  · by_cases herrno : errno = .notFound
    · subst herrno
      exact missingTarget_held _ _
    · simp only [herrno, if_false]
      exact reject_triple fun _ => Held.contained
  · cases obj with
    | link text => exact reject_triple fun _ => Held.contained
    | file ino | dir mode | special => exact existingTarget_held _ _

/-! ### The records -/

/-- The forced file, if there is one, is sheltered, and so is all that was touched. -/
def Keeps (root : Loc ν) (fault : Nat → Option Fault) (forcedFile : Option (Loc ν))
    (os : Os ν) : Prop :=
  ∃ fs, (∀ loc, forcedFile = some loc → Sheltered root fs loc) ∧ Held root fault fs os

theorem Held.keeps {os : Os ν} (h : Held root fault fs os) : Keeps root fault none os :=
  ⟨fs, nofun, h⟩

theorem Keeps.contained {forcedFile : Option (Loc ν)} {os : Os ν}
    (h : Keeps root fault forcedFile os) : Contained root os := by
  rcases h with ⟨_, -, hheld⟩
  exact hheld.contained

/-- A `D` record makes a child of the current directory, never through a link. -/
theorem receiveDirectory_keeps (N : OsNames ν) (request : ScpRequest) (line : List UInt8)
    (sink : Sink ν) :
    Triple (fun w => Keeps root fault sink.forcedFile w.os)
      (receiveDirectory N root request line sink)
      (fun sink' w => Keeps root fault sink'.forcedFile w.os) (fun w => Contained root w.os) := by
  refine (require_triple fun _ => Keeps.contained).bind fun _ => .of_fact fun hplace => ?_
  refine (orReject_triple fun _ => Keeps.contained).bind fun control => .of_fact fun _ => ?_
  refine (require_triple fun _ => Keeps.contained).bind fun _ => .of_fact fun _ => ?_
  refine .of_exists fun fs => .of_fact fun _ => ?_
  refine (onFs_triple (createChild_held N _ _)).bind fun path => .of_fact fun hpath => ?_
  -- the directory is made where nothing was
  have hroot := hpath.sheltered.1
  have hinside := Fs.createDir_inside hpath.plain hroot
  refine (onFs_triple (fsCall_triple (syscall_held hinside))).bind fun _ => ?_
  refine .of_exists fun fs₁ => .of_fact fun hmade => ?_
  rcases Fs.createDir_ok hpath.plain hmade with ⟨hnone, rfl⟩
  -- so its permissions are not set through a link either
  have hplain := hpath.plain.set (.dir 0o755) hnone fun _ => nofun
  have hinside₁ := Fs.setPermissions_inside hplain hroot (control.mode &&& 0o777)
  refine (onFs_triple (fsCall_triple (syscall_held hinside₁))).bind fun _ => ?_
  refine .of_exists fun fs₂ => .of_fact fun _ => ?_
  refine (onFs_triple (fsCall_triple observe_held)).bind fun directory => .of_fact fun _ => ?_
  refine (sendAck_triple (P := Held root fault fs₂) fun _ => Held.contained).bind fun _ => ?_
  refine .pure fun w hw => ?_
  -- a forced file has been refused at the start
  rw [hplace.1]
  exact Held.keeps hw

/-- A file goes to the forced place, or to a child of the current directory. -/
theorem filePath_held (N : OsNames ν) {sink : Sink ν}
    (hforced : ∀ loc, sink.forcedFile = some loc → Sheltered root fs loc) (name : List Char) :
    Triple (Held root fault fs) (filePath N root sink name)
      (fun loc os => Sheltered root fs loc ∧ Held root fault fs os) (Contained root) := by
  unfold filePath
  split
  · rename_i path hfile
    exact .pure fun os hos => ⟨hforced path hfile, hos⟩
  · exact (createChild_held N _ _).weaken (fun _ hos => hos) fun _ _ h => ⟨h.1.sheltered, h.2⟩

/-- A `C` record writes to a sheltered place, and sets the permissions of that place alone. -/
theorem receiveFile_keeps (N : OsNames ν) (line : List UInt8) (sink : Sink ν) :
    Triple (fun w => Keeps root fault sink.forcedFile w.os) (receiveFile N root line sink)
      (fun sink' w => Keeps root fault sink'.forcedFile w.os) (fun w => Contained root w.os) := by
  refine (orReject_triple fun _ => Keeps.contained).bind fun control => .of_fact fun _ => ?_
  refine (require_triple fun _ => Keeps.contained).bind fun _ => .of_fact fun _ => ?_
  refine (orReject_triple fun _ => Keeps.contained).bind fun name => .of_fact fun _ => ?_
  refine .of_exists fun fs => .of_fact fun hforced => ?_
  refine (onFs_triple (filePath_held N hforced name)).bind fun path => .of_fact fun hpath => ?_
  refine (sendAck_triple (P := Held root fault fs) fun _ => Held.contained).bind fun _ => ?_
  refine (onWire_triple (P := Held root fault fs) fun _ => Held.contained).bind fun data => ?_
  refine (expectAck_triple (P := Held root fault fs) fun _ => Held.contained).bind fun _ => ?_
  -- the place is sheltered, so the write stays inside
  have hinside := Fs.writeFile_inside hpath.2 hpath.1 data
  refine (onFs_triple (fsCall_triple (syscall_held hinside))).bind fun _ => ?_
  refine .of_exists fun fs₁ => .of_fact fun hwritten => ?_
  -- and what was written is no link
  have hplain := Fs.writeFile_keeps_plain hpath.2 hwritten
  have hinside₁ := Fs.setPermissions_inside hplain hpath.1 (control.mode &&& 0o777)
  refine (onFs_triple (fsCall_triple (syscall_held hinside₁))).bind fun _ => ?_
  refine .of_exists fun fs₂ => .of_fact fun _ => ?_
  refine (sendAck_triple (P := Held root fault fs₂) fun _ => Held.contained).bind fun _ => ?_
  -- the sink goes on without a forced file
  exact .pure fun _ => Held.keeps

/-- One record keeps the sink contained. -/
theorem receiveRecord_keeps (N : OsNames ν) (request : ScpRequest) (line : List UInt8)
    (sink : Sink ν) :
    Triple (fun w => Keeps root fault sink.forcedFile w.os) (receiveRecord N root request line sink)
      (fun sink' w => Keeps root fault sink'.forcedFile w.os) (fun w => Contained root w.os) := by
  have hack : Triple (fun w => Keeps root fault sink.forcedFile w.os) sendAck
      (fun _ w => Keeps root fault sink.forcedFile w.os) (fun w => Contained root w.os) :=
    sendAck_triple (P := Keeps root fault sink.forcedFile) fun _ => Keeps.contained
  unfold receiveRecord
  split
  · -- a `T` record is acknowledged and forgotten
    refine (require_triple fun _ => Keeps.contained).bind fun _ => .of_fact fun _ => ?_
    refine hack.bind fun _ => ?_
    exact .pure fun _ hw => hw
  · split
    · -- `D`
      exact receiveDirectory_keeps N request line sink
    · split
      · -- `E`: back to the parent, unless the target itself would be left
        unfold receiveEnd
        split
        · exact reject_triple fun _ => Keeps.contained
        · refine hack.bind fun _ => ?_
          exact .pure fun _ hw => hw
      · split
        · -- `C`, and everything else is refused
          exact receiveFile_keeps N line sink
        · exact reject_triple fun _ => Keeps.contained

/-- Whatever the peer sends, all that the sink touches is inside the root. -/
theorem sinkLoop_contained (N : OsNames ν) (request : ScpRequest) (turns : Nat) (sink : Sink ν) :
    Triple (fun w => Keeps root fault sink.forcedFile w.os) (sinkLoop N root request turns sink)
      (fun _ w => Contained root w.os) (fun w => Contained root w.os) := by
  -- by induction on the turns: each keeps `Keeps` for the sink it ends with
  induction turns generalizing sink with
  | zero => exact reject_triple fun _ => Keeps.contained
  | succ turns ih =>
      have hturn : Triple (fun w => Keeps root fault sink.forcedFile w.os)
          (sinkTurn N root request sink)
          (fun next w => match next with
            | none => Contained root w.os
            | some sink' => Keeps root fault sink'.forcedFile w.os)
          (fun w => Contained root w.os) := by
        refine tryWire_triple.bind fun result => ?_
        cases result with
        | ok line => exact (receiveRecord_keeps N request line sink).map
        | error error =>
            -- the stream ends: the loop does, or refuses
            refine Triple.get.bind fun w => ?_
            refine Triple.weaken ?_ (fun _ h => h.2) fun _ _ h => h
            refine (require_triple fun _ => Keeps.contained).bind fun _ => .of_fact fun _ => ?_
            exact .pure fun _ => Keeps.contained
      refine hturn.bind fun next => ?_
      cases next with
      | none => exact .pure fun _ hw => hw
      | some sink' => exact ih sink'

/-- Whatever the tree, the target and the records: the sink touches the root only. -/
theorem receiveSink_contained (N : OsNames ν) (request : ScpRequest) :
    Triple (fun w => Held root fault fs w.os) (receiveSink N root request)
      (fun _ w => Contained root w.os) (fun w => Contained root w.os) := by
  refine (onFs_triple (resolveSinkTarget_held N request)).bind fun target => ?_
  have hprepared : ∀ w : World ν, (∃ fs', Prepared root fs fs' target ∧ Held root fault fs' w.os) →
      Keeps root fault target.forcedFile w.os := by
    rintro w ⟨fs', hprepared, hw⟩
    exact ⟨fs', hprepared.forced, hw⟩
  refine Triple.weaken ?_ hprepared fun _ _ h => h
  have hack : Triple (fun w => Keeps root fault target.forcedFile w.os) sendAck
      (fun _ w => Keeps root fault target.forcedFile w.os) (fun w => Contained root w.os) :=
    sendAck_triple (P := Keeps root fault target.forcedFile) fun _ => Keeps.contained
  refine hack.bind fun _ => Triple.get.bind fun w => ?_
  exact (sinkLoop_contained N request _ _).weaken (fun _ h => h.2) fun _ _ h => h

end Containment

end Rssh.Scp
