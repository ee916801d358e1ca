import Rssh.Transfer.Records

/-!
# A sink with a file as its destination

Where the target of a sink is a file, or a name that is missing, the first `C` record goes to that
file, whatever name it carries. The records after it go to the directory of the file, under the
names they carry.

* `straysFrom` says of the records after the first file whether one of them reaches a path beside
  the destination.
* `resolveSinkTarget_chosen`: failures of the system do not change which target is chosen.
* `receive_sink_keeps_to_file_iff`: the destination is the only path that is created or written,
  in every run on a stream, exactly if none of its records strays.
-/

namespace Rssh.Scp

open Posix

variable {ν : Type} [DecidableEq ν]

/-! ## Records that stray -/

omit [DecidableEq ν] in
/-- A write to what stands there takes place. -/
def takesWrites : Option (Obj ν) → Bool
  | none => true
  | some (.file _) => true
  | some .special => true
  | some (.dir _) => false
  | some (.link _) => false

/-- Among the records that follow the first file there is one that creates or writes a path beside
it: the first of them that is not for the file itself, unless it is refused. -/
def straysFrom (N : OsNames ν) (fs : Fs ν) (recursive : Bool) (file : Loc ν) :
    List Record → Bool
  | [] => false
  | .times :: records => straysFrom N fs recursive file records
  | .close :: _ => false
  | .directory _ name :: _ =>
      let path := file.dropLast ++ [N.ofText name]
      recursive && decide (path ≠ file) && (fs.get path).isNone
  | .file _ name _ :: records =>
      let path := file.dropLast ++ [N.ofText name]
      if path = file then straysFrom N fs recursive file records else takesWrites (fs.get path)

/-- The same for all records: up to the first file there can only be times. -/
def strays (N : OsNames ν) (fs : Fs ν) (recursive : Bool) (file : Loc ν) : List Record → Bool
  | [] => false
  | .times :: records => strays N fs recursive file records
  | .close :: _ => false
  | .directory _ _ :: _ => false
  | .file _ _ _ :: records => straysFrom N fs recursive file records

/-! ## The target that is chosen -/

section Target

variable {N : OsNames ν} {root : Loc ν} {request : ScpRequest} {fs : Fs ν}
  {P : Access ν → Prop}

/-- How a tree decides on the target. -/
inductive Chosen (N : OsNames ν) (root : Loc ν) (request : ScpRequest) (fs : Fs ν) :
    SinkTarget ν → Prop where
  | directory {found : Loc ν × Obj ν} {loc : Loc ν} {mode : Nat}
      (hfound : fs.lookup false (targetPath N root request) = .ok found)
      (hcanonical : fs.canonicalize (targetPath N root request) = .ok loc)
      (hget : fs.get loc = some (.dir mode)) : Chosen N root request fs ⟨loc, none⟩
  | file {found : Loc ν × Obj ν} {loc : Loc ν} {ino : Nat}
      (hfound : fs.lookup false (targetPath N root request) = .ok found)
      (hcanonical : fs.canonicalize (targetPath N root request) = .ok loc)
      (hget : fs.get loc = some (.file ino)) (hflag : request.targetIsDirectory = false) :
      Chosen N root request fs ⟨loc.dropLast, some loc⟩
  | newDirectory {loc : Loc ν}
      (hmissing : fs.lookup false (targetPath N root request) = .error .notFound)
      (hflag : request.targetIsDirectory = true) : Chosen N root request fs ⟨loc, none⟩
  | newFile {parent : List (Seg ν)} {dir : Loc ν} {n : ν}
      (hmissing : fs.lookup false (targetPath N root request) = .error .notFound)
      (hflag : request.targetIsDirectory = false)
      (hparent : parent? (targetPath N root request) = some parent)
      (hname : fileName? (targetPath N root request) = some n)
      (hcanonical : fs.canonicalize parent = .ok dir) (hget : fs.get (dir ++ [n]) = none) :
      Chosen N root request fs ⟨dir, some (dir ++ [n])⟩

/-- A tree that decides on a file does not decide on anything else. -/
theorem Chosen.unique {target target' : SinkTarget ν} (h : Chosen N root request fs target)
    (h' : Chosen N root request fs target') (hfile : target.forcedFile ≠ none) :
    target' = target := by
  cases h with
  | directory => exact absurd rfl hfile
  | newDirectory => exact absurd rfl hfile
  | file hfound hcanonical hget hflag =>
      cases h' with
      | directory _ hcanonical' hget' =>
          rw [hcanonical] at hcanonical'
          cases hcanonical'
          rw [hget] at hget'
          cases hget'
      | file _ hcanonical' _ _ =>
          -- the two canonical paths are the same
          rw [hcanonical] at hcanonical'
          cases hcanonical'
          rfl
      | newDirectory hmissing | newFile hmissing =>
          rw [hfound] at hmissing
          cases hmissing
  | newFile hmissing hflag hparent hname hcanonical hget =>
      cases h' with
      | directory hfound | file hfound =>
          rw [hmissing] at hfound
          cases hfound
      | newDirectory _ hflag' =>
          rw [hflag] at hflag'
          cases hflag'
      | newFile _ _ hparent' hname' hcanonical' _ =>
          rw [hparent] at hparent'
          cases hparent'
          rw [hname] at hname'
          cases hname'
          rw [hcanonical] at hcanonical'
          cases hcanonical'
          rfl

/-- The walk passes over components that are dots. -/
theorem advance_cur {follow : Bool} {dir : Loc ν} {curs rest : List (Seg ν)}
    (h : ∀ seg ∈ curs, seg = .cur) :
    fs.advance follow dir (curs ++ rest) = fs.advance follow dir rest := by
  induction curs with
  | nil => rfl
  | cons seg curs ih =>
      obtain rfl : seg = .cur := h seg List.mem_cons_self
      exact ih fun seg hseg => h seg (List.mem_cons_of_mem _ hseg)

/-- A path is not missing if its name stands in the directory its parent leads to, unless as a
link. -/
theorem get_eq_none_of_missing {path parent : List (Seg ν)} {dir : Loc ν} {n : ν}
    (hmissing : fs.lookup false path = .error .notFound) (hparent : parent? path = some parent)
    (hname : fileName? path = some n) (hcanonical : fs.canonicalize parent = .ok dir)
    (hsolid : fs.Solid dir) (hlink : ∀ text, fs.get (dir ++ [n]) ≠ some (.link text)) :
    fs.get (dir ++ [n]) = none := by
  by_contra hsome
  rcases Option.ne_none_iff_exists'.mp hsome with ⟨obj, hget⟩
  rcases eq_parent_append hparent hname with ⟨between, after, rfl, hbetween, hafter⟩
  rcases hsolid.get with ⟨mode, hdir⟩
  have hresolved : fs.resolveFrom true maxLinks [] parent = .found dir := by
    simp only [Fs.canonicalize, Fs.resolve] at hcanonical
    split at hcanonical <;> cases hcanonical
    assumption
  have hstay : fs.advance false (dir ++ [n]) after = .found (dir ++ [n]) := by
    rw [← List.append_nil after, advance_cur hafter]
    rfl
  -- the whole path ends at the name, or at something that is no directory
  have hwalk : fs.advance false dir (between ++ .name n :: after) = .found (dir ++ [n]) ∨
      fs.advance false dir (between ++ .name n :: after) = .failed .notDirectory := by
    rw [advance_cur hbetween]
    cases obj with
    | link text => exact absurd hget (hlink text)
    | dir mode =>
        left
        simpa only [Fs.advance, hget] using hstay
    | file | special =>
        simp only [Fs.advance, hget]
        split
        · exact .inl rfl
        · exact .inr rfl
  have happend : fs.resolve false (parent ++ (between ++ .name n :: after)) =
      fs.resolveFrom false 0 dir (between ++ .name n :: after) := by
    refine Fs.resolveFrom_append hresolved hdir (by simp) ?_
    intro dir' text more hstop
    rcases hwalk with hwalk | hwalk <;> simp [hwalk] at hstop
  rw [Fs.lookup, happend, Fs.resolveFrom] at hmissing
  rcases hwalk with hwalk | hwalk
  · simp [hwalk, hget] at hmissing
  · simp [hwalk] at hmissing

omit [DecidableEq ν] in
theorem fsTry_touched {α : Type} {look : Fs ν → Except Errno α} {E : Os ν → Prop} :
    Triple (TouchedIn P fs) (fsTry (observe look))
      (fun result os => (result = look fs ∨ ∃ fault : Fault, result = .error fault.errno) ∧
        TouchedIn P fs os) E := by
  rintro os ⟨rfl, htouched⟩
  have htouched' : ∀ os' : Os ν, os'.log = os.log ++ [] → Touched P os' := by
    intro os' hlog
    exact touched_append htouched (by simp) hlog
  simp only [fsTry, observe, syscall]
  cases os.fault os.calls with
  | some fault => exact ⟨.inr ⟨fault, rfl⟩, rfl, htouched' _ rfl⟩
  | none =>
      cases look os.fs with
      | ok value => exact ⟨.inl rfl, rfl, htouched' _ rfl⟩
      | error errno => exact ⟨.inl rfl, rfl, htouched' _ rfl⟩

/-- The place that a path leads to, which is to be created or overwritten. -/
structure PlaceOf (fs : Fs ν) (path : List (Seg ν)) (loc : Loc ν) : Prop where
  split : ∃ parent dir n, parent? path = some parent ∧ fileName? path = some n ∧
    fs.canonicalize parent = .ok dir ∧ fs.Solid dir ∧ loc = dir ++ [n]
  plain : fs.Plain loc

/-- A place for a new file is found, and the tree is as it was. -/
theorem resolveForCreate_touched (relative : RelPath ν) :
    Triple (TouchedIn P fs) (resolveForCreate root relative)
      (fun loc os => PlaceOf fs (root.path ++ relative.segs) loc ∧ TouchedIn P fs os)
      (Touched P) := by
  refine (require_triple fun _ => TouchedIn.touched).bind fun _ => .of_fact fun _ => ?_
  refine (orReject_triple fun _ => TouchedIn.touched).bind fun parent => .of_fact fun hparent => ?_
  refine (fsCall_triple observe_touched).bind fun dir => .of_fact fun hcanonical => ?_
  refine (require_triple fun _ => TouchedIn.touched).bind fun _ => .of_fact fun _ => ?_
  refine (orReject_triple fun _ => TouchedIn.touched).bind fun n => .of_fact fun hname => ?_
  refine fsTry_touched.bind fun result => .of_fact fun hresult => ?_
  rcases Fs.canonicalize_ok hcanonical with ⟨hplain, obj, hobj⟩
  have hplace : fs.Solid dir → (∀ text, fs.get (dir ++ [n]) ≠ some (.link text)) →
      PlaceOf fs (root.path ++ relative.segs) (dir ++ [n]) := by
    intro hsolid hlink
    exact ⟨⟨parent, dir, n, hparent, hname, hcanonical, hsolid, rfl⟩, hsolid.concat_plain hlink⟩
  rcases Fs.lookup_concat n hplain hobj with ⟨hsolid, hlookup⟩ | hlookup
  · cases hget : fs.get (dir ++ [n]) with
    | none =>
        rw [hget] at hlookup
        rcases hresult with rfl | ⟨fault, rfl⟩
        · rw [hlookup]
          exact .pure fun _ hos => ⟨hplace hsolid (by simp [hget]), hos⟩
        · cases fault <;> exact reject_triple fun _ => TouchedIn.touched
    | some obj =>
        rw [hget] at hlookup
        rcases hresult with rfl | ⟨fault, rfl⟩
        · rw [hlookup]
          cases obj with
          -- the source refuses a link as the last component
          | link text => exact reject_triple fun _ => TouchedIn.touched
          | file | dir | special =>
              have hnew := hplace hsolid (by simp [hget])
              refine (fsCall_triple observe_touched).bind fun loc => .of_fact fun hloc => ?_
              refine (require_triple fun _ => TouchedIn.touched).bind fun _ => .of_fact fun _ => ?_
              rw [Fs.canonicalize_plain hnew.plain hget] at hloc
              cases hloc
              exact .pure fun _ hos => ⟨hnew, hos⟩
        · cases fault <;> exact reject_triple fun _ => TouchedIn.touched
  · rw [hlookup] at hresult
    rcases hresult with rfl | ⟨fault, rfl⟩
    · exact reject_triple fun _ => TouchedIn.touched
    · cases fault <;> exact reject_triple fun _ => TouchedIn.touched

/-- A look at what an object is changes nothing. -/
theorem kindIs_touched (kind : Obj ν → Bool) {loc : Loc ν} {obj : Obj ν} (hplain : fs.Plain loc)
    (hget : fs.get loc = some obj) {E : Os ν → Prop} :
    Triple (TouchedIn P fs) (kindIs kind loc.path)
      (fun answer os => (answer = true → kind obj = true) ∧ TouchedIn P fs os) E := by
  refine fsTry_touched.bind fun result => .of_fact fun hresult => ?_
  rw [Fs.lookup_plain hplain, hget] at hresult
  rcases hresult with rfl | ⟨fault, rfl⟩
  · exact .pure fun _ hos => ⟨id, hos⟩
  · exact .pure fun _ hos => ⟨nofun, hos⟩

/-- A target that exists is a directory to fill, or a file to overwrite. -/
theorem existingTarget_chosen {found : Loc ν × Obj ν}
    (hfound : fs.lookup false (targetPath N root request) = .ok found) :
    Triple (TouchedIn P fs) (existingTarget root request (targetPath N root request))
      (fun target os => Chosen N root request fs target ∧ TouchedIn P fs os) (Touched P) := by
  refine (fsCall_triple observe_touched).bind fun loc => .of_fact fun hcanonical => ?_
  refine (require_triple fun _ => TouchedIn.touched).bind fun _ => .of_fact fun _ => ?_
  rcases Fs.canonicalize_ok hcanonical with ⟨hplain, obj, hget⟩
  refine (kindIs_touched Obj.isDir hplain hget).bind fun directory => .of_fact fun hdirectory => ?_
  split
  · rename_i hyes
    cases obj with
    | dir mode => exact .pure fun _ hos => ⟨.directory hfound hcanonical hget, hos⟩
    | file | link | special => cases hdirectory hyes
  · refine (kindIs_touched Obj.isFile hplain hget).bind fun file => .of_fact fun hfile => ?_
    split
    · rename_i hyes
      refine (require_triple fun _ => TouchedIn.touched).bind fun _ => .of_fact fun hflag => ?_
      refine (orReject_triple fun _ => TouchedIn.touched).bind fun dir => .of_fact fun hdir => ?_
      simp only [locParent?] at hdir
      split at hdir <;> cases hdir
      cases obj with
      | file ino => exact .pure fun _ hos => ⟨.file hfound hcanonical hget hflag, hos⟩
      | dir | link | special => cases hfile hyes
    · exact reject_triple fun _ => TouchedIn.touched

/-- A target that is missing becomes a directory, or is the name of a new file. -/
theorem missingTarget_chosen
    (hmissing : fs.lookup false (targetPath N root request) = .error .notFound) :
    Triple (TouchedIn P fs) (missingTarget root request (RelPath.ofText N request.target))
      (fun target os => Chosen N root request fs target ∧
        (request.targetIsDirectory = false → TouchedIn P fs os))
      (fun os => request.targetIsDirectory = false → Touched P os) := by
  refine ((resolveForCreate_touched _).fails fun _ htouched _ => htouched).bind fun loc => ?_
  refine .of_fact fun hplace => ?_
  cases hflag : request.targetIsDirectory with
  | true =>
      -- the new directory is touched, but then there is no file to be forced
      simp only [if_true]
      have hfails : ∀ os : Os ν, true = false → Touched P os := fun _ => nofun
      refine (Triple.any (Q := fun _ _ => True) (fun _ _ => trivial) hfails).bind fun _ => ?_
      refine (Triple.any (Q := fun _ _ => True) (fun _ _ => trivial) hfails).bind fun dir => ?_
      exact .pure fun _ _ => ⟨.newDirectory hmissing hflag, nofun⟩
  | false =>
      simp only [Bool.false_eq_true, if_false]
      refine ((orReject_triple fun _ => TouchedIn.touched).fails fun _ htouched _ => htouched).bind
        fun dir => .of_fact fun hdir => ?_
      rcases hplace.split with ⟨parent, dir', n, hparent, hname, hcanonical, hsolid, rfl⟩
      simp only [locParent?, List.append_eq_nil_iff, List.cons_ne_self, and_false, if_false,
        List.dropLast_concat, Option.some.injEq] at hdir
      subst hdir
      have hget := get_eq_none_of_missing hmissing hparent hname hcanonical hsolid hplace.plain.2
      refine .pure fun _ hos => ⟨?_, fun _ => hos⟩
      exact .newFile hmissing hflag hparent hname hcanonical hget

/-- Whatever fails, a target that is resolved is the one the tree decides on, and unless it is to
be a directory nothing is touched for it. -/
theorem resolveSinkTarget_chosen :
    Triple (TouchedIn P fs) (resolveSinkTarget N root request)
      (fun target os => Chosen N root request fs target ∧
        (request.targetIsDirectory = false → TouchedIn P fs os))
      (fun os => request.targetIsDirectory = false → Touched P os) := by
  have hfails : ∀ os : Os ν, TouchedIn P fs os → request.targetIsDirectory = false →
      Touched P os := fun _ hos _ => hos.touched
  refine (require_triple hfails).bind fun _ => .of_fact fun _ => ?_
  refine fsTry_touched.bind fun result => .of_fact fun hresult => ?_
  rcases hresult with hseen | ⟨fault, rfl⟩
  · cases hlookup : fs.lookup false (targetPath N root request) with
    | ok found =>
        obtain rfl : result = .ok found := hseen.trans hlookup
        rcases found with ⟨loc, obj⟩
        cases obj with
        | link text => exact reject_triple hfails
        | file | dir | special =>
            refine ((existingTarget_chosen hlookup).weaken (fun _ hos => hos) ?_).fails ?_
            · intro target os hos
              exact ⟨hos.1, fun _ => hos.2⟩
            · intro os htouched _
              exact htouched
    | error errno =>
        obtain rfl : result = .error errno := hseen.trans hlookup
        -- every other error ends the request
        by_cases herrno : errno = .notFound
        · subst herrno
          exact missingTarget_chosen hlookup
        · simp only [herrno, if_false]
          exact reject_triple hfails
  · cases fault <;> exact reject_triple hfails

end Target

/-! ## The destination -/

/-- A file in a directory of the root, or a name that is missing there. -/
structure Destination (root : Loc ν) (fs : Fs ν) (file : Loc ν) : Prop where
  inside : root <+: file.dropLast
  solid : fs.Solid file.dropLast
  free : fs.get file = none ∨ ∃ ino, fs.get file = some (.file ino)

/-- The destination is below directories, not links. -/
theorem Destination.plain {root file : Loc ν} {fs : Fs ν} (h : Destination root fs file) :
    fs.Plain file := by
  refine ⟨h.solid, ?_⟩
  intro text hlink
  rcases h.free with hnone | ⟨ino, hfile⟩
  · rw [hlink] at hnone
    cases hnone
  · rw [hlink] at hfile
    cases hfile

/-- What a file as the target tells about the tree. -/
theorem destination_of_target {N : OsNames ν} {root : Loc ν} {request : ScpRequest} {fs : Fs ν}
    {directory file : Loc ν} {os : Os ν} (hroot : fs.Solid root)
    (htarget : resolveSinkTarget N root request { fs } = .ok ⟨directory, some file⟩ os) :
    request.targetIsDirectory = false ∧ os.fs = fs ∧
      Chosen N root request fs ⟨directory, some file⟩ ∧
      directory = file.dropLast ∧ Destination root fs file := by
  have hstart : TouchedIn (fun _ : Access ν => False) fs { fs } := ⟨rfl, nofun⟩
  have hchosen := @resolveSinkTarget_chosen _ _ N root request fs _ _ hstart
  have hheld := resolveSinkTarget_held N request { fs }
    (⟨rfl, rfl, inside_nil⟩ : Held root (fun _ => none) fs { fs })
  rw [htarget] at hchosen hheld
  rcases hchosen with ⟨hchosen, htree⟩
  rcases hheld with ⟨_, hprepared, rfl, -, -⟩
  -- a target that has to be a directory has no forced file
  have hflag : request.targetIsDirectory = false := by
    cases hchosen with
    | file _ _ _ hflag => exact hflag
    | newFile _ hflag => exact hflag
  obtain ⟨htree, -⟩ := htree hflag
  obtain ⟨hinside, hsolid⟩ := hprepared.directory hroot
  rw [htree] at hsolid
  refine ⟨hflag, htree, hchosen, ?_⟩
  cases hchosen with
  | file _ _ hget _ => exact ⟨rfl, hinside, hsolid, .inr ⟨_, hget⟩⟩
  | newFile _ _ _ _ _ hget =>
      refine ⟨by simp, ?_, ?_, .inl hget⟩
      · simpa using hinside
      · simpa using hsolid

/-- What is done to the destination is seen nowhere else. -/
theorem run_putFile {root file : Loc ν} {fs fs₁ fs₂ : Fs ν} {data : List UInt8} {mode : Nat}
    (h : Destination root fs file) (hwrite : (Effect.write file data).run fs = some fs₁)
    (hmode : (Effect.setPermissions file mode).run fs₁ = some fs₂) :
    (∀ loc, loc ≠ file → fs₂.get loc = fs.get loc) ∧ (∃ ino, fs₂.get file = some (.file ino)) ∧
      Destination root fs₂ file := by
  have hwritten : (∀ loc, loc ≠ file → fs₁.get loc = fs.get loc) ∧
      ∃ ino, fs₁.get file = some (.file ino) := by
    -- the file is made, or it was there
    rcases h.free with hnone | ⟨ino, hfile⟩
    · simp only [Effect.run, hnone, Option.some.injEq] at hwrite
      subst hwrite
      have hget := @Fs.get_newFile _ _ fs file data (Fs.ne_nil_of_get_eq_none hnone)
      refine ⟨fun loc hne => by rw [hget, if_neg hne], fs.nextIno, by rw [hget, if_pos rfl]⟩
    · simp only [Effect.run, hfile, Option.some.injEq] at hwrite
      subst hwrite
      exact ⟨fun loc _ => rfl, ino, hfile⟩
  rcases hwritten with ⟨hsame, ino, hfile⟩
  have hmoded : ∀ loc, fs₂.get loc = fs₁.get loc := by
    obtain ⟨rfl, -⟩ := run_setPermissions hmode
    intro loc
    simp only [Fs.chmodAt, hfile, Fs.get_setInode]
  refine ⟨fun loc hne => (hmoded loc).trans (hsame loc hne), ⟨ino, (hmoded file).trans hfile⟩,
    h.inside, run_solid hmode (run_solid hwrite h.solid), .inr ⟨ino, (hmoded file).trans hfile⟩⟩

/-! ## Runs with failures -/

section Kept

variable {N : OsNames ν} {root file : Loc ν} {request : ScpRequest} {fs : Fs ν}
  {stream : List UInt8}

omit [DecidableEq ν] in
/-- Nothing but the file was touched. -/
def Only (file : Loc ν) (w : World ν) : Prop := Touched (fun access => access.loc = file) w.os

omit [DecidableEq ν] in
/-- The same with the tree and what is left of the stream, whatever is to fail. -/
structure Kept (file : Loc ν) (fs : Fs ν) (stream : List UInt8) (w : World ν) : Prop where
  touched : TouchedIn (fun access => access.loc = file) fs w.os
  remaining : w.wire.remaining = stream

section Rules

omit [DecidableEq ν]

theorem Kept.only {w : World ν} (h : Kept file fs stream w) : Only file w := h.touched.touched

/-- A call on the tree does not read from the wire. -/
theorem onFs_kept {α : Type} {f : FsM ν α} {Q : α → Os ν → Prop}
    (h : Triple (TouchedIn (fun access => access.loc = file) fs) f Q
      (Touched fun access => access.loc = file)) :
    Triple (Kept file fs stream) (onFs f) (fun a w => Q a w.os ∧ w.wire.remaining = stream)
      (Only file) := by
  intro w hw
  have hf := h w.os hw.touched
  simp only [onFs]
  cases hrun : f w.os with
  | ok value os =>
      rw [hrun] at hf
      exact ⟨hf, hw.remaining⟩
  | error error os =>
      rw [hrun] at hf
      exact hf

theorem sendAck_kept :
    Triple (Kept file fs stream) sendAck (fun _ => Kept file fs stream) (Only file) := by
  intro w hw
  simp only [sendAck, onWire, ScpWire.send]
  cases w.wire.sendFails w.wire.sent.length with
  | true => exact hw.only
  | false => exact ⟨hw.touched, hw.remaining⟩

/-- A read takes the first bytes of what remains. -/
theorem readExact_kept (length : Nat) :
    Triple (Kept file fs stream) (onWire (ScpWire.readExact [] length))
      (fun data w => ∃ rest, (stream = data ++ rest ∧ data.length = length) ∧ Kept file fs rest w)
      (Only file) := by
  intro w hw
  simp only [onWire]
  cases hread : ScpWire.readExact [] length w.wire with
  | mk result wire =>
      cases result with
      | error error => exact hw.only
      | ok data =>
          rcases ScpWire.readExact_eq_ok hread with ⟨bytes, rfl, hlength, hrest⟩
          refine ⟨wire.remaining, ⟨?_, by simpa using hlength⟩, hw.touched, rfl⟩
          rw [← hw.remaining, hrest]

/-- The acknowledgement of the peer is one byte. -/
theorem expectAck_kept :
    Triple (Kept file fs stream) expectAck
      (fun _ w => ∃ rest, stream = 0 :: rest ∧ Kept file fs rest w) (Only file) := by
  have hbyte : Triple (Kept file fs stream) (onWire ScpWire.readByte)
      (fun byte w => ∃ rest, stream = byte :: rest ∧ Kept file fs rest w) (Only file) := by
    intro w hw
    simp only [onWire]
    cases hread : w.wire.readByte with
    | mk result wire =>
        cases result with
        | error error => exact hw.only
        | ok byte =>
            have hrest := (ScpWire.readByte_ok hread).1
            exact ⟨wire.remaining, hw.remaining ▸ hrest, hw.touched, rfl⟩
  refine hbyte.bind fun byte => .of_exists fun rest => .of_fact fun hstream => ?_
  refine (require_triple fun _ => Kept.only).weaken (fun _ hw => hw) ?_
  rintro _ w ⟨rfl, hw⟩
  exact ⟨rest, hstream, hw⟩

/-- A line that is read was the next one. -/
theorem readLine_kept :
    Triple (Kept file fs stream) (tryWire ScpWire.readLine)
      (fun result w => Only file w ∧ ∀ line, result = .ok line →
        ∃ rest, takeLine stream = some (line, rest) ∧ Kept file fs rest w) (Only file) := by
  intro w hw
  simp only [tryWire]
  refine ⟨hw.only, ?_⟩
  intro line hline
  have hread : w.wire.readLine = (.ok line, w.wire.readLine.2) := by rw [← hline]
  rcases ScpWire.readLineFrom_ok hread with ⟨bytes, rfl, hremaining, hplain, hroom⟩
  refine ⟨w.wire.readLine.2.remaining, ?_, hw.touched, rfl⟩
  rw [← hw.remaining, hremaining, takeLine_line hplain, if_pos hroom, List.nil_append]

end Rules

/-- The place of a child is below the directory, under its own name. -/
theorem createChild_touched {P : Access ν → Prop} {dir : Loc ν} (hinside : root <+: dir)
    (hsolid : fs.Solid dir) (name : List Char) :
    Triple (TouchedIn P fs) (createChild N root dir name)
      (fun loc os => (∃ leaf, portableControlName name = some leaf ∧
        loc = dir ++ [N.ofText leaf] ∧ fs.Plain loc) ∧ TouchedIn P fs os)
      (Touched P) := by
  refine (orReject_triple fun _ => TouchedIn.touched).bind fun relative => ?_
  refine .of_fact fun hrelative => ?_
  cases hname : portableControlName name with
  | none => simp [childRelative, hname] at hrelative
  | some leaf =>
      -- the name has no separator, so nothing is resolved but the name itself
      simp only [childRelative, hname, hinside, if_true, Option.some.injEq] at hrelative
      subst hrelative
      refine (resolveForCreate_touched _).weaken (fun _ hos => hos) ?_
      rintro loc os ⟨⟨⟨parent, dir', n, hparent, hlast, hcanonical, -, rfl⟩, hplain⟩, hos⟩
      rw [root_append_ofNames hinside] at hparent hlast
      rw [parent?_path] at hparent
      rw [fileName?_path] at hlast
      cases hparent
      cases hlast
      rcases hsolid.get with ⟨mode, hmode⟩
      rw [Fs.canonicalize_plain hsolid.plain hmode] at hcanonical
      cases hcanonical
      exact ⟨⟨leaf, rfl, rfl, hplain⟩, hos⟩

/-- A file is written to the forced place, or below the directory of the destination. -/
theorem filePath_touched {P : Access ν → Prop} {sink : Sink ν} (hdest : Destination root fs file)
    (hcurrent : sink.current = file.dropLast)
    (hforced : ∀ loc, sink.forcedFile = some loc → loc = file) {leaf : List Char}
    (hleaf : validateName leaf = true) :
    Triple (TouchedIn P fs) (filePath N root sink leaf)
      (fun loc os => (loc = sink.forcedFile.getD (file.dropLast ++ [N.ofText leaf]) ∧
        fs.Plain loc) ∧ TouchedIn P fs os)
      (Touched P) := by
  unfold filePath
  split
  · rename_i path hfile
    obtain rfl := hforced path hfile
    rw [hfile]
    exact .pure fun _ hos => ⟨⟨rfl, hdest.plain⟩, hos⟩
  · rename_i hfile
    rw [hfile, hcurrent]
    refine (createChild_touched hdest.inside hdest.solid leaf).weaken (fun _ hos => hos) ?_
    rintro loc os ⟨⟨leaf', hname, rfl, hplain⟩, hos⟩
    rw [portableControlName_of_valid hleaf] at hname
    cases hname
    exact ⟨⟨rfl, hplain⟩, hos⟩

/-- A call at a plain place touches that place, and only if it is carried out. -/
theorem Effect.call_touches (effect : Effect ν) (h : fs.Plain effect.loc) :
    ∀ access ∈ (effect.call fs).2, access.loc = effect.loc := by
  cases effect with
  | createDir loc =>
      have hcall := Fs.createDir_plain (show fs.Plain loc from h)
      cases hget : fs.get loc <;> simp [Effect.call, Effect.loc, hcall, hget]
  | write loc data =>
      have hcall := Fs.writeFile_plain (show fs.Plain loc from h) data
      cases hget : fs.get loc with
      | none => simp [Effect.call, Effect.loc, hcall, hget]
      | some obj => cases obj <;> simp [Effect.call, Effect.loc, hcall, hget]
  | setPermissions loc mode =>
      rcases Fs.resolve_plain (show fs.Plain loc from h) true with ⟨_, -, hres⟩ | ⟨_, _, -, -, hres⟩
      · simp [Effect.call, Effect.loc, Fs.setPermissions, hres]
      · simp [Effect.call, Effect.loc, Fs.setPermissions, hres]

/-- A call at the destination. -/
theorem effect_kept (effect : Effect ν) (hloc : effect.loc = file) (hplain : fs.Plain file) :
    Triple (Kept file fs stream) (onFs (fsCall (syscall effect.call)))
      (fun _ w => ∃ fs', effect.run fs = some fs' ∧ Kept file fs' stream w) (Only file) := by
  subst hloc
  refine (onFs_kept (fsCall_triple (syscall_touched (effect.call_touches hplain)))).weaken
    (fun _ hw => hw) ?_
  rintro value w ⟨⟨fs', hok, htouched⟩, hremaining⟩
  have hrun := effect.call_plain hplain
  cases heffect : effect.run fs with
  | none =>
      -- the call fails, and has accessed only the destination
      rw [heffect] at hrun
      rcases hrun with ⟨errno, herror⟩
      rw [hok] at herror
      cases herror
  | some fs'' =>
      rw [heffect] at hrun
      rw [hok] at hrun
      cases hrun
      exact ⟨_, rfl, htouched, hremaining⟩

/-- A call that is refused touches nothing. -/
theorem effect_refused (effect : Effect ν) (hcall : (effect.call fs).2 = [])
    (hrun : effect.run fs = none) (hplain : fs.Plain effect.loc) {Q : Unit → World ν → Prop} :
    Triple (Kept file fs stream) (onFs (fsCall (syscall effect.call))) Q (Only file) := by
  have htouched : ∀ access ∈ (effect.call fs).2, access.loc = file := by simp [hcall]
  refine (onFs_kept (fsCall_triple (syscall_touched htouched))).weaken (fun _ hw => hw) ?_
  rintro value w ⟨⟨fs', hok, -⟩, -⟩
  have hplaced := effect.call_plain hplain
  rw [hrun] at hplaced
  rcases hplaced with ⟨errno, herror⟩
  rw [hok] at herror
  cases herror

/-- A `C` record for the destination, or for a place where a write is refused. -/
theorem receiveFile_kept {line : List UInt8} {sink : Sink ν} (hdest : Destination root fs file)
    (hcurrent : sink.current = file.dropLast)
    (hforced : ∀ loc, sink.forcedFile = some loc → loc = file)
    (hkeeps : ∀ mode leaf data rest, fileRecord line stream = some (.file mode leaf data, rest) →
      sink.forcedFile.getD (file.dropLast ++ [N.ofText leaf]) = file ∨
        takesWrites (fs.get (sink.forcedFile.getD (file.dropLast ++ [N.ofText leaf]))) = false) :
    Triple (Kept file fs stream) (receiveFile N root line sink)
      (fun sink' w => ∃ mode leaf data rest fs', sink' = { sink with forcedFile := none } ∧
        fileRecord line stream = some (.file mode leaf data, rest) ∧
        sink.forcedFile.getD (file.dropLast ++ [N.ofText leaf]) = file ∧
        (∀ loc, loc ≠ file → fs'.get loc = fs.get loc) ∧
        (∃ ino, fs'.get file = some (.file ino)) ∧ Destination root fs' file ∧
        Kept file fs' rest w)
      (Only file) := by
  refine (orReject_triple fun _ => Kept.only).bind fun control => .of_fact fun hcontrol => ?_
  refine (require_triple fun _ => Kept.only).bind fun _ => .of_fact fun hsize => ?_
  refine (orReject_triple fun _ => Kept.only).bind fun leaf => .of_fact fun hname => ?_
  have hleaf := portableControlName_valid hname
  refine (onFs_kept (filePath_touched hdest hcurrent hforced hleaf)).bind fun path => ?_
  refine Triple.weaken (P := fun w => (path = sink.forcedFile.getD
    (file.dropLast ++ [N.ofText leaf]) ∧ fs.Plain path) ∧ Kept file fs stream w) ?_
    (fun w hw => ⟨hw.1.1, hw.1.2, hw.2⟩) fun _ _ h => h
  refine .of_fact fun ⟨hpath, hplain⟩ => ?_
  refine sendAck_kept.bind fun _ => ?_
  refine (readExact_kept _).bind fun data => .of_exists fun rest => .of_fact fun hdata => ?_
  refine expectAck_kept.bind fun _ => .of_exists fun rest' => .of_fact fun hzero => ?_
  rcases hdata with ⟨hstream, hlength⟩
  subst hzero
  have hrecord : fileRecord line stream = some (.file control.mode leaf data, rest') := by
    rw [← hlength] at hsize
    simp [fileRecord, hcontrol, hname, hsize, hstream, ← hlength]
  -- the record is for the destination, or the tree refuses it
  rcases hkeeps _ _ _ _ hrecord with hfile | hrefused
  · rw [hfile] at hpath
    subst hpath
    refine (effect_kept (.write path data) rfl hplain).bind fun _ => .of_exists fun fs₁ => ?_
    refine .of_fact fun hwrite => ?_
    have hplain₁ := run_write_plain hplain hwrite
    refine (effect_kept (.setPermissions path (control.mode &&& 0o777)) rfl hplain₁).bind
      fun _ => .of_exists fun fs₂ => .of_fact fun hmode => ?_
    refine sendAck_kept.bind fun _ => ?_
    rcases run_putFile hdest hwrite hmode with ⟨hsame, hnow, hdest'⟩
    exact .pure fun w hw => ⟨_, _, _, _, fs₂, rfl, hrecord, hfile, hsame, hnow, hdest', hw⟩
  · rw [← hpath] at hrefused
    have hcall := Fs.writeFile_plain hplain data
    refine Triple.bind_fails (effect_refused (.write path data) ?_ ?_ hplain)
    · cases hget : fs.get path with
      | none => simp [hget, takesWrites] at hrefused
      | some obj => cases obj <;> simp_all [Effect.call, takesWrites]
    · cases hget : fs.get path with
      | none => simp [hget, takesWrites] at hrefused
      | some obj => cases obj <;> simp_all [Effect.run, takesWrites]

/-- A `D` record whose directory stands already. -/
theorem receiveDirectory_kept {line : List UInt8} {sink : Sink ν}
    (hdest : Destination root fs file) (hcurrent : sink.current = file.dropLast)
    (hstands : ∀ mode leaf, directoryRecord line = some (.directory mode leaf) →
      sink.forcedFile = none → request.recursive = true →
      fs.get (file.dropLast ++ [N.ofText leaf]) ≠ none) {Q : Sink ν → World ν → Prop} :
    Triple (Kept file fs stream) (receiveDirectory N root request line sink) Q (Only file) := by
  refine (require_triple fun _ => Kept.only).bind fun _ => .of_fact fun hallowed => ?_
  refine (orReject_triple fun _ => Kept.only).bind fun control => .of_fact fun hcontrol => ?_
  refine (require_triple fun _ => Kept.only).bind fun _ => .of_fact fun hsize => ?_
  have hchild := createChild_touched (N := N) (P := fun access => access.loc = file) hdest.inside
    hdest.solid control.name
  rw [hcurrent]
  refine (onFs_kept hchild).bind fun path => ?_
  refine Triple.weaken (P := fun w => (∃ leaf, portableControlName control.name = some leaf ∧
    path = file.dropLast ++ [N.ofText leaf] ∧ fs.Plain path) ∧ Kept file fs stream w) ?_
    (fun w hw => ⟨hw.1.1, hw.1.2, hw.2⟩) fun _ _ h => h
  refine .of_fact fun ⟨leaf, hname, hpath, hplain⟩ => ?_
  have hrecord : directoryRecord line = some (.directory control.mode leaf) := by
    simp [directoryRecord, hcontrol, hsize, hname]
  have hsome := hstands _ _ hrecord hallowed.1 hallowed.2.1
  rw [← hpath] at hsome
  rcases Option.ne_none_iff_exists'.mp hsome with ⟨obj, hget⟩
  -- the name is taken, so no directory is made
  have hcall := Fs.createDir_plain hplain
  rw [hget] at hcall
  refine Triple.bind_fails (effect_refused (.createDir path) ?_ ?_ hplain)
  · simp [Effect.call, hcall]
  · simp [Effect.run, hget]

/-- Where the loop stands: before the first file nothing strays, or after it. -/
inductive Phase (N : OsNames ν) (recursive : Bool) (fs₀ : Fs ν) (file : Loc ν) (fs : Fs ν)
    (stream : List UInt8) : Sink ν → Prop where
  | first (htree : fs = fs₀) (hkeeps : strays N fs₀ recursive file (records stream).1 = false) :
      Phase N recursive fs₀ file fs stream { current := file.dropLast, forcedFile := some file }
  | later (htree : ∀ loc, loc ≠ file → fs.get loc = fs₀.get loc)
      (hfile : ∃ ino, fs.get file = some (.file ino))
      (hkeeps : straysFrom N fs₀ recursive file (records stream).1 = false) :
      Phase N recursive fs₀ file fs stream { current := file.dropLast }

variable {fs₀ : Fs ν}

/-- One record keeps to the destination. -/
theorem receiveRecord_kept {line rest : List UInt8} {sink : Sink ν}
    (hdest : Destination root fs file) (hline : takeLine stream = some (line, rest))
    (hphase : Phase N request.recursive fs₀ file fs stream sink) :
    Triple (Kept file fs rest) (receiveRecord N root request line sink)
      (fun sink' w => ∃ fs' rest', (Destination root fs' file ∧
        Phase N request.recursive fs₀ file fs' rest' sink') ∧ Kept file fs' rest' w)
      (Only file) := by
  have hrecords : ∀ record rest', recordOf line rest = some (record, rest') →
      (records stream).1 = record :: (records rest').1 := by
    intro record rest' hrecord
    rw [records_some (show takeRecord stream = some (record, rest') by
      simp only [takeRecord, hline, hrecord])]
  have hcurrent : sink.current = file.dropLast := by cases hphase <;> rfl
  have hforced : ∀ loc, sink.forcedFile = some loc → loc = file := by
    cases hphase with
    | first => simp [eq_comm]
    | later => simp
  unfold receiveRecord
  split_ifs with htimes hdirectory hclose hfile
  · refine (require_triple fun _ => Kept.only).bind fun _ => .of_fact fun hparse => ?_
    refine sendAck_kept.bind fun _ => .pure fun w hw => ⟨fs, rest, ⟨hdest, ?_⟩, hw⟩
    have hfirst := hrecords .times rest (by simp [recordOf, htimes, hparse])
    cases hphase with
    | first htree hkeeps =>
        -- a `T` record leaves the forced file for the first `C` record
        rw [hfirst] at hkeeps
        exact .first htree hkeeps
    | later htree hnow hkeeps =>
        rw [hfirst] at hkeeps
        exact .later htree hnow hkeeps
  · refine receiveDirectory_kept hdest hcurrent ?_
    intro mode leaf hrecord hnone hrecursive
    have hfirst := hrecords (.directory mode leaf) rest
      (by simp [recordOf, hdirectory, hrecord])
    cases hphase with
    | first => cases hnone
    | later htree hnow hkeeps =>
        rw [hfirst] at hkeeps
        -- a later record strays unless it has the name of the destination
        by_cases hpath : file.dropLast ++ [N.ofText leaf] = file
        · rw [hpath]
          rcases hnow with ⟨ino, hnow⟩
          simp [hnow]
        · rw [htree _ hpath]
          simpa [straysFrom, hrecursive, hpath, ← Option.isSome_iff_ne_none] using hkeeps
  · cases hphase with
    | first => exact reject_triple fun _ => Kept.only
    | later => exact reject_triple fun _ => Kept.only
  · have hrecord : ∀ mode leaf data rest', fileRecord line rest =
        some (.file mode leaf data, rest') →
        (records stream).1 = .file mode leaf data :: (records rest').1 := by
      intro mode leaf data rest' hrecord
      exact hrecords _ _ (by simp [recordOf, hclose, hfile, hrecord])
    refine ((receiveFile_kept hdest hcurrent hforced ?_).weaken (fun _ hw => hw) ?_)
    · intro mode leaf data rest' hfileRecord
      cases hphase with
      | first => exact .inl rfl
      | later htree hnow hkeeps =>
          rw [hrecord _ _ _ _ hfileRecord] at hkeeps
          simp only [straysFrom] at hkeeps
          split at hkeeps
          · rename_i hpath
            exact .inl hpath
          · rename_i hpath
            right
            simpa [htree _ hpath] using hkeeps
    · rintro _ w ⟨mode, leaf, data, rest', fs', rfl, hfileRecord, hpath, hsame, hnow, hdest', hw⟩
      refine ⟨fs', rest', ⟨hdest', ?_⟩, hw⟩
      have hfirst := hrecord _ _ _ _ hfileRecord
      cases hphase with
      | first htree hkeeps =>
          -- the forced file is taken, and the records behind it go by their names
          rw [hfirst] at hkeeps
          subst htree
          exact .later hsame hnow hkeeps
      | later htree _ hkeeps =>
          rw [hfirst, straysFrom] at hkeeps
          have hpath' : file.dropLast ++ [N.ofText leaf] = file := hpath
          simp only [hpath', if_true] at hkeeps
          exact .later (fun loc hne => (hsame loc hne).trans (htree loc hne)) hnow hkeeps
  · exact reject_triple fun _ => Kept.only

/-- The whole loop keeps to the destination, whatever fails. -/
theorem sinkLoop_kept (turns : Nat) {sink : Sink ν} (hdest : Destination root fs file)
    (hphase : Phase N request.recursive fs₀ file fs stream sink) :
    Triple (Kept file fs stream) (sinkLoop N root request turns sink) (fun _ => Only file)
      (Only file) := by
  induction turns generalizing fs stream sink with
  -- no turn is left: nothing was accessed elsewhere so far
  | zero => exact reject_triple fun _ => Kept.only
  | succ turns ih =>
      have hturn : Triple (Kept file fs stream) (sinkTurn N root request sink)
          (fun next w => next.elim (Only file w) fun sink' =>
            ∃ fs' rest', (Destination root fs' file ∧
              Phase N request.recursive fs₀ file fs' rest' sink') ∧ Kept file fs' rest' w)
          (Only file) := by
        refine readLine_kept.bind fun result => ?_
        cases result with
        | ok line =>
            refine Triple.map ?_
            intro w hw
            rcases hw.2 line rfl with ⟨rest, hline, hkept⟩
            exact receiveRecord_kept hdest hline hphase w hkept
        | error error =>
            refine Triple.get.bind fun w => ?_
            refine Triple.weaken (P := Only file) ?_ (fun _ hw => hw.2.1) fun _ _ h => h
            refine (require_triple fun _ hw => hw).bind fun _ => .of_fact fun _ => ?_
            exact .pure fun _ hw => hw
      refine hturn.bind fun next => ?_
      cases next with
      | none => exact .pure fun _ hw => hw
      | some sink' =>
          refine .of_exists fun fs' => .of_exists fun rest' => .of_fact fun hnext => ?_
          exact ih hnext.1 hnext.2

end Kept

/-! ## Runs without failures -/

section Strayed

variable {N : OsNames ν} {root file : Loc ν} {request : ScpRequest} {fs fs₀ : Fs ν}
  {stream : List UInt8} {sent : List (List UInt8)}

omit [DecidableEq ν] in
/-- A path beside the file was created or written. -/
def Strayed (file : Loc ν) (os : Os ν) : Prop :=
  ∃ access ∈ os.log, (access.kind = .create ∨ access.kind = .write) ∧ access.loc ≠ file

section Rules

variable {α : Type}

omit [DecidableEq ν]

theorem fsCall_strayed {effect : Fs ν → CallEffect ν α} :
    Lasts (Strayed file) (fsCall (syscall effect)) :=
  fsCall_triple syscall_lasts

theorem fsTry_strayed {look : Fs ν → Except Errno α} :
    Lasts (Strayed file) (fsTry (observe look)) :=
  fsTry_lasts syscall_lasts

end Rules

/-- Looking for a place takes no access back. -/
theorem resolveForCreate_strayed (relative : RelPath ν) :
    Lasts (Strayed file) (resolveForCreate root relative) := by
  refine require_lasts.bind fun _ => orReject_lasts.bind fun parent => ?_
  refine fsCall_strayed.bind fun dir => require_lasts.bind fun _ => ?_
  refine orReject_lasts.bind fun n => fsTry_strayed.bind fun result => ?_
  have hexisting : Lasts (Strayed file) (do
      let canonical ← fsCall (observe (·.canonicalize (Loc.path (dir ++ [n]))))
      require (root <+: canonical)
      pure canonical : FsM ν (Loc ν)) :=
    fsCall_strayed.bind fun _ => require_lasts.bind fun _ => Lasts.pure
  rcases result with errno | ⟨loc, obj⟩
  · dsimp only
    split
    · exact Lasts.pure
    · exact reject_triple fun _ hos => hos
  · cases obj with
    | link text => exact reject_triple fun _ hos => hos
    | file | dir | special => exact hexisting

theorem createChild_strayed (dir : Loc ν) (name : List Char) :
    Lasts (Strayed file) (createChild N root dir name) :=
  orReject_lasts.bind fun relative => resolveForCreate_strayed relative

section Loop

omit [DecidableEq ν] in
theorem onFs_strayed {α : Type} {f : FsM ν α} (h : Lasts (Strayed file) f) :
    Lasts (fun w => Strayed file w.os) (onFs f) :=
  onFs_triple h

omit [DecidableEq ν] in
theorem sendAck_strayed : Lasts (fun w : World ν => Strayed file w.os) sendAck :=
  sendAck_triple fun _ hos => hos

/-- What strayed stays so, through every record. -/
theorem receiveRecord_strayed (line : List UInt8) (sink : Sink ν) :
    Lasts (fun w => Strayed file w.os) (receiveRecord N root request line sink) := by
  unfold receiveRecord
  -- each kind of record only adds to the log
  split_ifs
  · exact require_lasts.bind fun _ => sendAck_strayed.bind fun _ => Lasts.pure
  · refine require_lasts.bind fun _ => orReject_lasts.bind fun control => ?_
    refine require_lasts.bind fun _ => (onFs_strayed (createChild_strayed _ _)).bind fun path => ?_
    refine (onFs_strayed fsCall_strayed).bind fun _ => ?_
    refine (onFs_strayed fsCall_strayed).bind fun _ => ?_
    refine (onFs_strayed fsCall_strayed).bind fun directory => ?_
    exact sendAck_strayed.bind fun _ => Lasts.pure
  · unfold receiveEnd
    split
    · exact reject_triple fun _ hw => hw
    · exact sendAck_strayed.bind fun _ => Lasts.pure
  · refine orReject_lasts.bind fun control => require_lasts.bind fun _ => ?_
    refine orReject_lasts.bind fun name => ?_
    have hpath : Lasts (Strayed file) (filePath N root sink name) := by
      unfold filePath
      split
      · exact Lasts.pure
      · exact createChild_strayed _ _
    refine (onFs_strayed hpath).bind fun path => sendAck_strayed.bind fun _ => ?_
    refine Lasts.bind (onWire_triple fun _ hos => hos) fun data => ?_
    refine Lasts.bind (expectAck_triple fun _ hos => hos) fun _ => ?_
    refine (onFs_strayed fsCall_strayed).bind fun _ => ?_
    refine (onFs_strayed fsCall_strayed).bind fun _ => ?_
    exact sendAck_strayed.bind fun _ => Lasts.pure
  · exact reject_triple fun _ hw => hw

theorem sinkLoop_strayed (turns : Nat) (sink : Sink ν) :
    Lasts (fun w => Strayed file w.os) (sinkLoop N root request turns sink) := by
  induction turns generalizing sink with
  | zero => exact reject_triple fun _ hw => hw
  | succ turns ih =>
      have hturn : Lasts (fun w => Strayed file w.os) (sinkTurn N root request sink) := by
        refine Lasts.bind tryWire_triple fun result => ?_
        cases result with
        | ok line => exact (receiveRecord_strayed line sink).map
        | error error =>
            refine Lasts.bind (Triple.get.weaken (fun _ hw => hw) fun _ _ hw => hw.2) fun w => ?_
            exact require_lasts.bind fun _ => Lasts.pure
      refine hturn.bind fun next => ?_
      cases next with
      | none => exact Lasts.pure
      | some sink' => exact ih sink'

end Loop

/-- A call beside the file that creates or writes something. -/
theorem effect_strays (effect : Effect ν) (hloc : effect.loc ≠ file) (hplain : fs.Plain effect.loc)
    (hchanges : ∃ access ∈ (effect.call fs).2, access.kind = .create ∨ access.kind = .write) :
    Triple (At stream sent fs) (onFs (fsCall (syscall effect.call)))
      (fun _ w => Strayed file w.os) (fun w => Strayed file w.os) := by
  rcases hchanges with ⟨access, hmem, hkind⟩
  -- this access is the one that strays
  have hbeside : access.loc ≠ file := by
    rw [effect.call_touches hplain access hmem]
    exact hloc
  refine onFs_triple (P := Calm fs) (fsCall_triple ?_) |>.weaken (fun w hw => hw.calm)
    fun _ _ h => h
  rintro os ⟨rfl, hcalm⟩
  have hlogged : ∀ os' : Os ν, os'.log = os.log ++ (effect.call os.fs).2 → Strayed file os' := by
    intro os' hlog
    refine ⟨access, ?_, hkind, hbeside⟩
    rw [hlog]
    exact List.mem_append_right _ hmem
  simp only [syscall, hcalm]
  cases (effect.call os.fs).1 with
  | ok result => exact hlogged _ rfl
  | error errno => exact hlogged _ rfl

/-- The record is carried out beside the file. -/
def Record.Strays (N : OsNames ν) (fs : Fs ν) (recursive : Bool) (file : Loc ν) : Record → Prop
  | .times => False
  | .close => False
  | .directory _ name =>
      recursive = true ∧ file.dropLast ++ [N.ofText name] ≠ file ∧
        fs.get (file.dropLast ++ [N.ofText name]) = none
  | .file _ name _ =>
      file.dropLast ++ [N.ofText name] ≠ file ∧
        takesWrites (fs.get (file.dropLast ++ [N.ofText name])) = true

omit [DecidableEq ν] in
theorem not_link_of_takesWrites {obj : Option (Obj ν)} (h : takesWrites obj = true)
    (text : LinkText ν) : obj ≠ some (.link text) := by
  rintro rfl
  cases h

/-- A record that strays is carried out, when nothing fails. -/
theorem receiveRecord_strays {line rest : List UInt8} {record : Record}
    (hdest : Destination root fs file) (h : recordOf line stream = some (record, rest))
    (hstrays : record.Strays N fs request.recursive file) :
    Triple (At stream sent fs) (receiveRecord N root request line { current := file.dropLast })
      (fun _ w => Strayed file w.os) (fun w => Strayed file w.os) := by
  unfold receiveRecord
  unfold recordOf at h
  split_ifs at h ⊢ with htimes hparse hdirectory hclose hfile
  · cases h
    exact hstrays.elim
  · rcases Option.map_eq_some_iff.mp h with ⟨_, hrecord, heq⟩
    cases heq
    rcases directoryRecord_some hrecord with ⟨control, leaf, hcontrol, hsize, hname, rfl⟩
    rcases hstrays with ⟨hrecursive, hpath, hnone⟩
    refine (require_pos ⟨rfl, hrecursive, by simp [Sink.depth, maxRecursionDepth]⟩).bind fun _ => ?_
    refine (orReject_some hcontrol).bind_eq ((require_pos hsize).bind fun _ => ?_)
    -- the directory is free, so it is made
    have hchild := onFs_at stream sent (createChild_calm N hname hdest.inside hdest.solid)
    refine (hchild.fails ?_).bind fun path => .of_fact ?_
    · rintro w ⟨⟨text, hlink⟩, -⟩
      rw [hnone] at hlink
      cases hlink
    rintro ⟨rfl, hplain⟩
    refine (effect_strays (.createDir _) hpath hplain ?_).bind fun _ => ?_
    · refine ⟨⟨.create, file.dropLast ++ [N.ofText leaf]⟩, ?_, .inl rfl⟩
      simp only [Effect.call, Fs.createDir_plain hplain, hnone]
      exact List.mem_cons_self
    · refine (onFs_strayed fsCall_strayed).bind fun _ => ?_
      refine (onFs_strayed fsCall_strayed).bind fun directory => ?_
      exact sendAck_strayed.bind fun _ => Lasts.pure
  · cases h
    exact hstrays.elim
  · rcases fileRecord_some h with ⟨control, leaf, data, hcontrol, hsize, hname, hdata, rfl, rfl⟩
    rcases hstrays with ⟨hpath, hwrites⟩
    -- the file takes the write
    have hvalid := portableControlName_valid hname
    refine (orReject_some hcontrol).bind_eq ((require_pos hsize).bind fun _ => ?_)
    refine (orReject_some hname).bind_eq ?_
    have hchild := onFs_at (data ++ 0 :: rest) sent
      (createChild_calm N (portableControlName_of_valid hvalid) hdest.inside hdest.solid)
    refine (hchild.fails ?_).bind fun path => .of_fact ?_
    · rintro w ⟨⟨text, hlink⟩, -⟩
      exact absurd hlink (not_link_of_takesWrites hwrites text)
    rintro ⟨rfl, hplain⟩
    refine sendAck_at.bind fun _ => ?_
    rw [← hdata]
    refine readExact_at.bind_eq (expectAck_at.bind fun _ => ?_)
    refine (effect_strays (.write _ data) hpath hplain ?_).bind fun _ => ?_
    · have hcall := Fs.writeFile_plain hplain data
      refine ⟨⟨.write, file.dropLast ++ [N.ofText leaf]⟩, ?_, .inr rfl⟩
      cases hget : fs.get (file.dropLast ++ [N.ofText leaf]) with
      | none => simp [Effect.call, hcall, hget]
      | some obj => cases obj <;> simp_all [Effect.call, takesWrites]
    · refine (onFs_strayed fsCall_strayed).bind fun _ => ?_
      exact sendAck_strayed.bind fun _ => Lasts.pure

/-- A turn with a record that is carried out. -/
theorem sinkLoop_turn {turns : Nat} {sink sink' : Sink ν} {record : Record} {rest : List UInt8}
    {effects : List (Effect ν)} {fs' : Fs ν} {Q : Unit → World ν → Prop} {E : World ν → Prop}
    (hgood : Good root fs sink) (htake : takeRecord stream = some (record, rest))
    (hplace : record.place N request.recursive sink = some (sink', effects))
    (hrun : runEffects fs effects = some fs')
    (hnext : Triple (At rest (sent ++ List.replicate record.acks [0]) fs')
      (sinkLoop N root request turns sink') Q E) :
    Triple (At stream sent fs) (sinkLoop N root request (turns + 1) sink) Q E := by
  refine ((sinkTurn_some N request hgood htake).fails ?_).bind fun next => ?_
  · intro w hw
    simp only [hplace, hrun] at hw
    cases hw
  · rintro w ⟨sink'', effects', fs'', rfl, hplace', hrun', hw⟩
    rw [hplace] at hplace'
    cases hplace'
    rw [hrun] at hrun'
    cases hrun'
    exact hnext w hw

theorem Destination.good {forced : Option (Loc ν)} (h : Destination root fs file)
    (hforced : ∀ loc, forced = some loc → loc = file) :
    Good root fs { current := file.dropLast, forcedFile := forced } where
  dirs dir hdir := by
    obtain rfl : dir = file.dropLast := by simpa using hdir
    exact ⟨h.inside, h.solid⟩
  forced loc hloc := hforced loc hloc ▸ h.plain

/-- The destination can be written. -/
theorem Destination.putFile (h : Destination root fs file) (data : List UInt8) (mode : Nat) :
    ∃ fs', runEffects fs (putFile file data mode) = some fs' ∧
      (∀ loc, loc ≠ file → fs'.get loc = fs.get loc) ∧ (∃ ino, fs'.get file = some (.file ino)) ∧
      Destination root fs' file := by
  have hwrite : ∃ fs₁, (Effect.write file data).run fs = some fs₁ ∧ fs₁.get file ≠ none := by
    rcases h.free with hnone | ⟨ino, hfile⟩
    · refine ⟨_, by simp only [Effect.run, hnone]; rfl, ?_⟩
      rw [Fs.get_newFile (Fs.ne_nil_of_get_eq_none hnone), if_pos rfl]
      exact Option.some_ne_none _
    · refine ⟨_, by simp only [Effect.run, hfile]; rfl, ?_⟩
      simp [hfile]
  rcases hwrite with ⟨fs₁, hwrite, hsome⟩
  rcases Option.ne_none_iff_exists'.mp hsome with ⟨obj, hobj⟩
  have hmode : (Effect.setPermissions file (mode &&& 0o777)).run fs₁ =
      some (fs₁.chmodAt file (mode &&& 0o777)) := by
    simp only [Effect.run, hobj]
  refine ⟨_, ?_, run_putFile h hwrite hmode⟩
  simp [Scp.putFile, runEffects, hwrite, hmode]

/-- After the first file: the first record that strays is carried out. -/
theorem sinkLoop_strays_later {turns : Nat} (hturns : stream.length < turns)
    (hdest : Destination root fs file) (htree : ∀ loc, loc ≠ file → fs.get loc = fs₀.get loc)
    (hstrays : straysFrom N fs₀ request.recursive file (records stream).1 = true) :
    Triple (At stream sent fs) (sinkLoop N root request turns { current := file.dropLast })
      (fun _ w => Strayed file w.os) (fun w => Strayed file w.os) := by
  induction turns generalizing stream sent fs with
  | zero => simp at hturns
  | succ turns ih =>
      cases htake : takeRecord stream with
      | none => simp [records_none htake, straysFrom] at hstrays
      | some taken =>
          rcases taken with ⟨record, rest⟩
          have hlength := takeRecord_length htake
          have hgood : Good root fs { current := file.dropLast } := hdest.good nofun
          rw [records_some htake] at hstrays
          -- the record that strays, and everything after it
          have hstrayed : record.Strays N fs request.recursive file →
              Triple (At stream sent fs)
                (sinkLoop N root request (turns + 1) { current := file.dropLast })
                (fun _ w => Strayed file w.os) (fun w => Strayed file w.os) := by
            intro hrecord
            have hturn : Triple (At stream sent fs)
                (sinkTurn N root request { current := file.dropLast })
                (fun _ w => Strayed file w.os) (fun w => Strayed file w.os) := by
              refine readLine_at.bind fun result => ?_
              cases hline : takeLine stream with
              | none => simp [takeRecord, hline] at htake
              | some lines =>
                  simp only [takeRecord, hline] at htake
                  refine .of_fact fun heq => heq ▸ Triple.map ?_
                  exact receiveRecord_strays hdest htake hrecord
            refine hturn.bind fun next => ?_
            cases next with
            | none => exact .pure fun _ hw => hw
            | some sink' => exact sinkLoop_strayed turns sink'
          cases record with
          | times => exact sinkLoop_turn hgood htake rfl rfl (ih (by omega) hdest htree hstrays)
          | close => cases hstrays
          | directory mode name =>
              simp only [straysFrom, Bool.and_eq_true, decide_eq_true_eq,
                Option.isNone_iff_eq_none] at hstrays
              refine hstrayed ⟨hstrays.1.1, hstrays.1.2, ?_⟩
              rw [htree _ hstrays.1.2]
              exact hstrays.2
          | file mode name data =>
              simp only [straysFrom] at hstrays
              split at hstrays
              · rename_i hpath
                rcases hdest.putFile data mode with ⟨fs', hrun, hsame, -, hdest'⟩
                have hplace : (Record.file mode name data).place N request.recursive
                    { current := file.dropLast } =
                      some ({ current := file.dropLast }, Scp.putFile file data mode) := by
                  simp [Record.place, hpath]
                refine sinkLoop_turn hgood htake hplace hrun (ih (by omega) hdest' ?_ hstrays)
                intro loc hne
                exact (hsame loc hne).trans (htree loc hne)
              · rename_i hpath
                refine hstrayed ⟨hpath, ?_⟩
                rw [htree _ hpath]
                exact hstrays

/-- From the start of the loop. -/
theorem sinkLoop_strays {turns : Nat} (hturns : stream.length < turns)
    (hdest : Destination root fs file)
    (hstrays : strays N fs request.recursive file (records stream).1 = true) :
    Triple (At stream sent fs)
      (sinkLoop N root request turns { current := file.dropLast, forcedFile := some file })
      (fun _ w => Strayed file w.os) (fun w => Strayed file w.os) := by
  induction turns generalizing stream sent with
  | zero => simp at hturns
  | succ turns ih =>
      cases htake : takeRecord stream with
      | none => simp [records_none htake, strays] at hstrays
      | some taken =>
          rcases taken with ⟨record, rest⟩
          have hlength := takeRecord_length htake
          have hgood : Good root fs { current := file.dropLast, forcedFile := some file } :=
            hdest.good (by simp [eq_comm])
          rw [records_some htake] at hstrays
          cases record with
          -- times are read and forgotten
          | times => exact sinkLoop_turn hgood htake rfl rfl (ih (by omega) hstrays)
          | close | directory => cases hstrays
          | file mode name data =>
              -- the first file goes to the destination, and the rest decides
              rcases hdest.putFile data mode with ⟨fs', hrun, hsame, -, hdest'⟩
              refine sinkLoop_turn hgood htake rfl hrun ?_
              exact sinkLoop_strays_later (by omega) hdest' hsame hstrays

end Strayed

/-! ## The law -/

/-- A sink with a file as its destination creates and writes nothing else, on every system and
channel and however the stream is cut into messages, if and only if no record of the stream
strays: behind the first file, the first record that is not for the file itself is refused. -/
theorem receive_sink_keeps_to_file_iff (N : OsNames ν) {root : Loc ν} {request : ScpRequest}
    {fs : Fs ν} {directory file : Loc ν} {os : Os ν} (hroot : fs.Solid root)
    (htarget : resolveSinkTarget N root request { fs } = .ok ⟨directory, some file⟩ os)
    (stream : List UInt8) :
    (∀ (wire : ScpWire) (fault : Nat → Option Fault), wire.remaining = stream →
      ∀ access ∈ (finalWorld (receiveSink N root request ⟨wire, { fs, fault }⟩)).os.log,
        access.kind = .create ∨ access.kind = .write → access.loc = file) ↔
      strays N fs request.recursive file (records stream).1 = false := by
  obtain ⟨hflag, htree, hchosen, rfl, hdest⟩ := destination_of_target hroot htarget
  -- a run without failures has all accesses of the records, and a run with them has a part
  constructor
  · intro hkeeps
    by_contra hstrays
    rw [Bool.not_eq_false] at hstrays
    have hrun : Triple (fun w => w = ⟨{ events := [.data stream, .eof] }, { fs }⟩)
        (receiveSink N root request) (fun _ w => Strayed file w.os)
        (fun w => Strayed file w.os) := by
      refine (resolveSinkTarget_at N request htarget rfl).bind_eq ?_
      refine sendAck_at.bind fun _ => Triple.get.bind fun w => ?_
      rintro _ ⟨rfl, hw⟩
      have hstream : streamBytes [.data stream, .eof] = stream := by simp [streamBytes]
      rw [hstream, htree] at hw
      refine sinkLoop_strays ?_ hdest hstrays w hw
      rw [hw.remaining]
      exact Nat.lt_succ_self _
    have hfinal := finalWorld_of_triple hrun rfl
    rcases hfinal with ⟨access, hmem, hkind, hloc⟩
    exact hloc (hkeeps _ _ (by simp [ScpWire.remaining, streamBytes]) access hmem hkind)
  · intro hstrays wire fault hremaining access hmem _
    have hrun : Triple (Kept file fs stream) (receiveSink N root request) (fun _ => Only file)
        (Only file) := by
      have hresolved : Triple (TouchedIn (fun access => access.loc = file) fs)
          (resolveSinkTarget N root request)
          (fun target os => target = ⟨file.dropLast, some file⟩ ∧
            TouchedIn (fun access => access.loc = file) fs os)
          (Touched fun access => access.loc = file) := by
        refine (resolveSinkTarget_chosen.weaken (fun _ hos => hos) ?_).fails ?_
        · intro target os hos
          exact ⟨hchosen.unique hos.1 (Option.some_ne_none _), hos.2 hflag⟩
        · intro os hos
          exact hos hflag
      refine (onFs_kept hresolved).bind fun target => ?_
      rintro w ⟨⟨rfl, htouched⟩, hremaining⟩
      refine sendAck_kept.bind (fun _ => Triple.get.bind fun w => ?_) w ⟨htouched, hremaining⟩
      exact (sinkLoop_kept _ hdest (.first rfl hstrays)).weaken (fun _ hw => hw.2) fun _ _ h => h
    have hstart : Kept file fs stream ⟨wire, { fs, fault }⟩ :=
      ⟨⟨rfl, List.forall_mem_nil _⟩, hremaining⟩
    exact finalWorld_of_triple hrun hstart access hmem

/-- A record with the name `n`. -/
def ownName : List UInt8 := Text.encodeUtf8 "C0644 1 n\ny\x00".toList

/-- Two records for the missing name `n`, the second with that name itself: the file is written
over. -/
theorem receive_sink_keeps_to_file_ownName :
    strays textNames emptyRoot false [['r'], ['n']] (records (oneFile ++ ownName)).1 = false ∧
    ∀ (wire : ScpWire) (fault : Nat → Option Fault), wire.remaining = oneFile ++ ownName →
      ∀ access ∈ (finalWorld (receiveSink textNames [['r']] { target := ['n'] }
        ⟨wire, { fs := emptyRoot, fault }⟩)).os.log,
        access.kind = .create ∨ access.kind = .write → access.loc = [['r'], ['n']] := by
  have hroot : emptyRoot.Solid [['r']] := Fs.solid_concat.mpr ⟨Fs.solid_nil, 0o755, rfl⟩
  have htarget : ∃ os, resolveSinkTarget textNames [['r']] { target := ['n'] }
      { fs := emptyRoot } = .ok ⟨[['r']], some [['r'], ['n']]⟩ os := ⟨_, rfl⟩
  rcases htarget with ⟨os, htarget⟩
  have hfirst : takeRecord (oneFile ++ ownName) = some (.file 0o644 ['f'] [120], ownName) := by
    decide +kernel
  have hsecond : takeRecord ownName = some (.file 0o644 ['n'] [121], []) := by
    decide +kernel
  have hkeeps : strays textNames emptyRoot false [['r'], ['n']]
      (records (oneFile ++ ownName)).1 = false := by
    rw [records_some hfirst, records_some hsecond, records_none rfl]
    rfl
  exact ⟨hkeeps,
    (receive_sink_keeps_to_file_iff textNames hroot htarget (oneFile ++ ownName)).mpr hkeeps⟩

/-- Two records for a name that is missing: the second one makes a file beside it. -/
theorem second_record_strays :
    (∃ os, resolveSinkTarget textNames [['r']] { target := ['n'] } { fs := emptyRoot } =
      .ok ⟨[['r']], some [['r'], ['n']]⟩ os) ∧
    ⟨.create, [['r'], ['f']]⟩ ∈ (finalWorld (receiveSink textNames [['r']] { target := ['n'] }
      ⟨{ events := [.data (oneFile ++ oneFile), .eof] }, { fs := emptyRoot }⟩)).os.log := by
  refine ⟨⟨_, rfl⟩, ?_⟩
  decide +kernel

end Rssh.Scp
