import Rssh.Transfer.Lines

/-!
# Trees of files on both sides of a transfer

A `Forest` is the content of a directory: files and directories with their names, modes and
contents, in the order of their names. On one side stands what the source makes of it (the
bytes it sends), on the other what the sink does with them (records, calls, the tree that
results).

* `records_encode`: the bytes are read back as the records, exactly if every control line
  fits.
* `placeAll_toRecords`: the records are all allowed, exactly if the directories are not
  nested too deep.
* `runEffects_effects`: the calls build the forest in a place where nothing stands.
-/

namespace Rssh.Scp

open Posix

/-- The content of a directory: its first entry, and the others. -/
inductive Forest (ν : Type) where
  | nil
  | file (name : ν) (mode : Nat) (data : List UInt8) (rest : Forest ν)
  | dir (name : ν) (mode : Nat) (children rest : Forest ν)
deriving DecidableEq, Repr

namespace Forest

variable {ν : Type}

def names : Forest ν → List ν
  | nil => []
  | file name _ _ rest => name :: rest.names
  | dir name _ _ rest => name :: rest.names

/-- The same with the permission bits only. -/
def masked : Forest ν → Forest ν
  | nil => nil
  | file name mode data rest => file name (mode &&& 0o777) data rest.masked
  | dir name mode children rest => dir name (mode &&& 0o777) children.masked rest.masked

/-- How many directories are nested. -/
def nesting : Forest ν → Nat
  | nil => 0
  | file _ _ _ rest => rest.nesting
  | dir _ _ children rest => max (children.nesting + 1) rest.nesting

/-- Masking the modes leaves the names. -/
@[simp] theorem names_masked (forest : Forest ν) : forest.masked.names = forest.names := by
  induction forest with
  | nil => rfl
  | file name mode data rest ih => simp [masked, names, ih]
  | dir name mode children rest _ ih => simp [masked, names, ih]

theorem eq_nil_of_names {forest : Forest ν} (h : forest.names = []) : forest = nil := by
  cases forest with
  | nil => rfl
  | file | dir => cases h

/-! ## The source's side -/

/-- The text of a name, where it has one. -/
def nameText (N : OsNames ν) (name : ν) : List Char := (N.toText name).getD []

/-- The name is a text that `validate_name` accepts. -/
def ValidName (N : OsNames ν) (name : ν) : Prop :=
  N.toText name = some (nameText N name) ∧ validateName (nameText N name) = true

theorem ValidName.ofText {N : OsNames ν} {name : ν} (h : ValidName N name) :
    N.ofText (nameText N name) = name :=
  N.ofText_toText _ _ h.1

/-- What the source checks of the entries it sends. -/
def Sendable (N : OsNames ν) : Forest ν → Prop
  | nil => True
  | file name _ data rest =>
      ValidName N name ∧ data.length ≤ maxFileSize ∧ rest.Sendable N
  | dir name _ children rest => ValidName N name ∧ children.Sendable N ∧ rest.Sendable N

/-- Every control line fits in what a sink reads as one. -/
def LinesFit (N : OsNames ν) : Forest ν → Prop
  | nil => True
  | file name mode data rest =>
      (fileLine (mode &&& 0o777) data.length (nameText N name)).length ≤ maxControlLine ∧
        rest.LinesFit N
  | dir name mode children rest =>
      (directoryLine (mode &&& 0o777) (nameText N name)).length ≤ maxControlLine ∧
        children.LinesFit N ∧ rest.LinesFit N

/-- The `T` line before an entry, where times are asked for. -/
def timesBytes (preserveTimes : Bool) (times : Loc ν → UInt64 × UInt64) (path : Loc ν) :
    List UInt8 :=
  if preserveTimes then timesLine (times path).1 (times path).2 else []

/-- What the source sends for the entries of a directory. -/
def encode (N : OsNames ν) (preserveTimes : Bool) (times : Loc ν → UInt64 × UInt64) :
    Loc ν → Forest ν → List UInt8
  | _, nil => []
  | path, file name mode data rest =>
      timesBytes preserveTimes times (path ++ [name]) ++
        (fileLine (mode &&& 0o777) data.length (nameText N name) ++
          (data ++ 0 :: rest.encode N preserveTimes times path))
  | path, dir name mode children rest =>
      timesBytes preserveTimes times (path ++ [name]) ++
        (directoryLine (mode &&& 0o777) (nameText N name) ++
          (children.encode N preserveTimes times (path ++ [name]) ++
            (endLine ++ rest.encode N preserveTimes times path)))

/-! ## Reading it back -/

def timesRecords (preserveTimes : Bool) : List Record := if preserveTimes then [.times] else []

/-- The records of the entries of a directory. -/
def toRecords (N : OsNames ν) (preserveTimes : Bool) : Forest ν → List Record
  | nil => []
  | file name mode data rest =>
      timesRecords preserveTimes ++
        .file (mode &&& 0o777) (nameText N name) data :: rest.toRecords N preserveTimes
  | dir name mode children rest =>
      timesRecords preserveTimes ++
        .directory (mode &&& 0o777) (nameText N name) ::
          (children.toRecords N preserveTimes ++ .close :: rest.toRecords N preserveTimes)

/-- A stream that starts with these records. -/
def StartsWith (recs : List Record) (tail stream : List UInt8) : Prop :=
  records stream = (recs ++ (records tail).1, (records tail).2)

/-- A record at the head of the stream is taken first. -/
theorem StartsWith.cons {recs : List Record} {record : Record} {tail rest stream : List UInt8}
    (htake : takeRecord stream = some (record, rest)) (h : StartsWith recs tail rest) :
    StartsWith (record :: recs) tail stream := by
  rw [StartsWith, records_some htake, h]
  rfl

theorem StartsWith.trans {recs recs' : List Record} {tail tail' stream : List UInt8}
    (h : StartsWith recs tail' stream) (h' : StartsWith recs' tail tail') :
    StartsWith (recs ++ recs') tail stream := by
  rw [StartsWith, h, h', List.append_assoc]

/-- The times are sent in front of an entry, or left out. -/
theorem startsWith_times (preserveTimes : Bool) (times : Loc ν → UInt64 × UInt64)
    (path : Loc ν) {recs : List Record} {tail rest : List UInt8} (h : StartsWith recs tail rest) :
    StartsWith (timesRecords preserveTimes ++ recs) tail
      (timesBytes preserveTimes times path ++ rest) := by
  cases preserveTimes with
  | false => exact h
  | true => exact h.cons (takeRecord_timesLine _ _ _)

/-- What is left over of a stream does not depend on the times in front of it. -/
theorem rest_times (preserveTimes : Bool) (times : Loc ν → UInt64 × UInt64) (path : Loc ν)
    (rest : List UInt8) :
    (records (timesBytes preserveTimes times path ++ rest)).2 = (records rest).2 := by
  cases preserveTimes with
  | false => rfl
  | true =>
      change (records (timesLine (times path).1 (times path).2 ++ rest)).2 = _
      rw [records_some (takeRecord_timesLine _ _ _)]

/-- Where every line fits, the bytes are the records. -/
theorem records_encode {N : OsNames ν} {forest : Forest ν} (preserveTimes : Bool)
    (times : Loc ν → UInt64 × UInt64) (path : Loc ν) (tail : List UInt8)
    (hsend : forest.Sendable N) (hfit : forest.LinesFit N) :
    StartsWith (forest.toRecords N preserveTimes) tail
      (forest.encode N preserveTimes times path ++ tail) := by
  induction forest generalizing path tail with
  | nil => rfl
  | file name mode data rest ih =>
      simp only [encode, toRecords, List.append_assoc, List.cons_append]
      refine startsWith_times _ _ _ (StartsWith.cons ?_ (ih path tail hsend.2.2 hfit.2))
      rw [takeRecord_fileLine mode hsend.1.2 hsend.2.1, if_pos hfit.1]
  | dir name mode children rest ihc ih =>
      simp only [encode, toRecords, List.append_assoc]
      have hrest := ih path tail hsend.2.2 hfit.2.2
      have hclosed := hrest.cons (takeRecord_endLine _)
      have hinside := (ihc (path ++ [name]) _ hsend.2.1 hfit.2.1).trans hclosed
      refine startsWith_times _ _ _ (hinside.cons ?_)
      rw [takeRecord_directoryLine mode hsend.1.2, if_pos hfit.1]

/-- Where a line does not fit, something is left. -/
theorem rest_encode_ne_nil {N : OsNames ν} {forest : Forest ν} (preserveTimes : Bool)
    (times : Loc ν → UInt64 × UInt64) (path : Loc ν) (tail : List UInt8)
    (hsend : forest.Sendable N) (hfit : ¬forest.LinesFit N) :
    (records (forest.encode N preserveTimes times path ++ tail)).2 ≠ [] := by
  induction forest generalizing path tail with
  | nil => exact absurd trivial hfit
  | file name mode data rest ih =>
      simp only [encode, List.append_assoc, List.cons_append]
      rw [rest_times]
      have htake := takeRecord_fileLine mode hsend.1.2 hsend.2.1
        (rest.encode N preserveTimes times path ++ tail)
      -- a line over the limit is where the records end; before it, the induction goes on
      by_cases hline :
          (fileLine (mode &&& 0o777) data.length (nameText N name)).length ≤ maxControlLine
      · rw [if_pos hline] at htake
        rw [records_some htake]
        exact ih path tail hsend.2.2 fun h => hfit ⟨hline, h⟩
      · rw [if_neg hline] at htake
        rw [records_none htake]
        simp
  | dir name mode children rest ihc ih =>
      -- in a directory the long line is its own, one below it or one behind it
      simp only [encode, List.append_assoc]
      rw [rest_times]
      have htake := takeRecord_directoryLine mode hsend.1.2
        (children.encode N preserveTimes times (path ++ [name]) ++
          (endLine ++ (rest.encode N preserveTimes times path ++ tail)))
      by_cases hline :
          (directoryLine (mode &&& 0o777) (nameText N name)).length ≤ maxControlLine
      · rw [if_pos hline] at htake
        rw [records_some htake]
        by_cases hchildren : children.LinesFit N
        · have hinside := records_encode preserveTimes times (path ++ [name])
            (endLine ++ (rest.encode N preserveTimes times path ++ tail)) hsend.2.1 hchildren
          rw [hinside, records_some (takeRecord_endLine _)]
          exact ih path tail hsend.2.2 fun h => hfit ⟨hline, hchildren, h⟩
        · exact ihc (path ++ [name]) _ hsend.2.1 hchildren
      · rw [if_neg hline] at htake
        rw [records_none htake]
        simp [endLine]

/-! ## Placing the records -/

/-- The calls that build the entries in a directory. -/
def effects : Loc ν → Forest ν → List (Effect ν)
  | _, nil => []
  | path, file name mode data rest =>
      putFile (path ++ [name]) data (mode &&& 0o777) ++ rest.effects path
  | path, dir name mode children rest =>
      newDirectory (path ++ [name]) (mode &&& 0o777) ++
        (children.effects (path ++ [name]) ++ rest.effects path)

/-- Effects before those of a plan. -/
def before (effects : List (Effect ν)) (plan : Plan ν) : Plan ν :=
  { plan with effects := effects ++ plan.effects }

theorem before_append (xs ys : List (Effect ν)) (plan : Plan ν) :
    before (xs ++ ys) plan = before xs (before ys plan) := by
  simp [before]

section Placing

variable {N : OsNames ν} {left : List UInt8}

/-- A record that is placed adds its effects in front. -/
theorem placeAll_some {sink sink' : Sink ν} {record : Record} {recs : List Record}
    {effects : List (Effect ν)} (h : record.place N true sink = some (sink', effects)) :
    placeAll N true left sink (record :: recs) =
      before effects (placeAll N true left sink' recs) := by
  simp [placeAll, h, before]

/-- Times place nothing. -/
theorem placeAll_times (preserveTimes : Bool) (sink : Sink ν) (recs : List Record) :
    placeAll N true left sink (timesRecords preserveTimes ++ recs) =
      placeAll N true left sink recs := by
  cases preserveTimes with
  | false => rfl
  | true => rfl

/-- A file is placed under its own name in the current directory. -/
theorem place_file {sink : Sink ν} (hforced : sink.forcedFile = none) {name : ν}
    (hname : ValidName N name) (mode : Nat) (data : List UInt8) :
    (Record.file mode (nameText N name) data).place N true sink =
      some (sink, putFile (sink.current ++ [name]) data mode) := by
  rcases sink with ⟨current, above, forcedFile⟩
  obtain rfl : forcedFile = none := hforced
  simp [Record.place, hname.ofText]

/-- The place inside a new directory. -/
def enter (sink : Sink ν) (name : ν) : Sink ν :=
  { sink with current := sink.current ++ [name], above := sink.current :: sink.above }

/-- A directory is made and entered, if it is not too deep. -/
theorem place_directory {sink : Sink ν} (hforced : sink.forcedFile = none)
    (hdepth : sink.depth < maxRecursionDepth) {name : ν} (hname : ValidName N name) (mode : Nat) :
    (Record.directory mode (nameText N name)).place N true sink =
      some (enter sink name, newDirectory (sink.current ++ [name]) mode) := by
  simp [Record.place, hforced, hdepth, hname.ofText, enter]

theorem place_close (sink : Sink ν) (name : ν) :
    Record.close.place N true (enter sink name) = some (sink, []) := rfl

theorem depth_enter (sink : Sink ν) (name : ν) : (enter sink name).depth = sink.depth + 1 := rfl

/-- Records of a forest that is not nested too deep are all allowed, and lead back to where
they started. -/
theorem placeAll_toRecords {forest : Forest ν} (preserveTimes : Bool) {sink : Sink ν}
    (recs : List Record) (hsend : forest.Sendable N) (hforced : sink.forcedFile = none)
    (hdepth : sink.depth + forest.nesting ≤ maxRecursionDepth) :
    placeAll N true left sink (forest.toRecords N preserveTimes ++ recs) =
      before (forest.effects sink.current) (placeAll N true left sink recs) := by
  induction forest generalizing sink recs with
  | nil => rfl
  | file name mode data rest ih =>
      simp only [toRecords, effects, List.append_assoc, List.cons_append]
      rw [placeAll_times, placeAll_some (place_file hforced hsend.1 _ _),
        ih recs hsend.2.2 hforced hdepth, before_append]
  | dir name mode children rest ihc ih =>
      have hentered : (enter sink name).forcedFile = none := hforced
      simp only [nesting] at hdepth
      simp only [toRecords, effects, List.append_assoc, List.cons_append]
      rw [placeAll_times, placeAll_some (place_directory hforced (by omega) hsend.1 _),
        ihc _ hsend.2.1 hentered (by rw [depth_enter]; omega),
        placeAll_some (place_close sink name), ih recs hsend.2.2 hforced (by omega),
        before_append, before_append]
      rfl

/-- Records of a forest that is nested too deep are not all allowed. -/
theorem refused_toRecords {forest : Forest ν} (preserveTimes : Bool) {sink : Sink ν}
    (recs : List Record) (hsend : forest.Sendable N) (hforced : sink.forcedFile = none)
    (hstart : sink.depth ≤ maxRecursionDepth)
    (hdepth : maxRecursionDepth < sink.depth + forest.nesting) :
    (placeAll N true left sink (forest.toRecords N preserveTimes ++ recs)).refused ≠ [] := by
  induction forest generalizing sink recs with
  | nil => simp [nesting] at hdepth; omega
  | file name mode data rest ih =>
      simp only [toRecords, List.append_assoc, List.cons_append]
      rw [placeAll_times, placeAll_some (place_file hforced hsend.1 _ _)]
      exact ih recs hsend.2.2 hforced hstart hdepth
  | dir name mode children rest ihc ih =>
      have hentered : (enter sink name).forcedFile = none := hforced
      simp only [nesting] at hdepth
      simp only [toRecords, List.append_assoc, List.cons_append]
      rw [placeAll_times]
      -- the record that is refused is below this directory, behind it, or its own
      by_cases hroom : sink.depth < maxRecursionDepth
      · rw [placeAll_some (place_directory hforced hroom hsend.1 _)]
        by_cases hchildren : (enter sink name).depth + children.nesting ≤ maxRecursionDepth
        · rw [placeAll_toRecords preserveTimes _ hsend.2.1 hentered hchildren,
            placeAll_some (place_close sink name)]
          rw [depth_enter] at hchildren
          exact ih recs hsend.2.2 hforced hstart (by omega)
        · exact ihc _ hsend.2.1 hentered (by rw [depth_enter]; omega) (by omega)
      · -- the directory itself is one too many
        simp [placeAll, Record.place, hroom]

end Placing

/-! ## Standing in a tree -/

variable [DecidableEq ν]

/-- The entries of a directory, in the order of their names. -/
def sorted (N : OsNames ν) (fs : Fs ν) (path : Loc ν) : List ν :=
  (fs.children path).insertionSort fun a b => N.le a b = true

/-- The entries stand in the directory as the forest says, with nothing else below them. -/
def Stands (N : OsNames ν) (fs : Fs ν) : Loc ν → Forest ν → Prop
  | _, nil => True
  | path, file name mode data rest =>
      (∃ ino, fs.get (path ++ [name]) = some (.file ino) ∧ fs.inode ino = ⟨data, mode⟩) ∧
        rest.Stands N fs path
  | path, dir name mode children rest =>
      fs.get (path ++ [name]) = some (.dir mode) ∧
        sorted N fs (path ++ [name]) = children.names ∧ children.Stands N fs (path ++ [name]) ∧
        rest.Stands N fs path

instance decidableFileAt (fs : Fs ν) (loc : Loc ν) (inode : Inode) :
    Decidable (∃ ino, fs.get loc = some (.file ino) ∧ fs.inode ino = inode) :=
  match h : fs.get loc with
  | some (.file ino) => decidable_of_iff (fs.inode ino = inode) (by simp)
  | some (.dir _) => isFalse (by simp)
  | some (.link _) => isFalse (by simp)
  | some .special => isFalse (by simp)
  | none => isFalse (by simp)

instance decidableStands (N : OsNames ν) (fs : Fs ν) :
    (path : Loc ν) → (forest : Forest ν) → Decidable (forest.Stands N fs path)
  | _, nil => isTrue trivial
  | path, file name mode data rest =>
      have := decidableStands N fs path rest
      inferInstanceAs (Decidable ((∃ ino, fs.get (path ++ [name]) = some (.file ino) ∧
        fs.inode ino = ⟨data, mode⟩) ∧ rest.Stands N fs path))
  | path, dir name mode children rest =>
      have := decidableStands N fs (path ++ [name]) children
      have := decidableStands N fs path rest
      inferInstanceAs (Decidable (fs.get (path ++ [name]) = some (.dir mode) ∧
        sorted N fs (path ++ [name]) = children.names ∧
        children.Stands N fs (path ++ [name]) ∧ rest.Stands N fs path))

/-- No name occurs twice in a directory. -/
def Distinct : Forest ν → Prop
  | nil => True
  | file name _ _ rest => name ∉ rest.names ∧ rest.Distinct
  | dir name _ children rest => name ∉ rest.names ∧ children.Distinct ∧ rest.Distinct

/-- The entries stand in the directory, all inodes in use; the order of names is left out. -/
def Holds (fs : Fs ν) : Loc ν → Forest ν → Prop
  | _, nil => True
  | path, file name mode data rest =>
      (∃ ino, fs.get (path ++ [name]) = some (.file ino) ∧ ino < fs.nextIno ∧
        fs.inode ino = ⟨data, mode⟩) ∧ rest.Holds fs path
  | path, dir name mode children rest =>
      fs.get (path ++ [name]) = some (.dir mode) ∧
        (∀ n, fs.get (path ++ [name] ++ [n]) ≠ none → n ∈ children.names) ∧
        children.Holds fs (path ++ [name]) ∧ rest.Holds fs path

/-- What building entries in a directory leaves alone: everything that is not below one of
their names, and the inodes in use. -/
structure Frame (fs fs' : Fs ν) (path : Loc ν) (names : List ν) : Prop where
  get : ∀ loc, (∀ n ∈ names, ¬path ++ [n] <+: loc) → fs'.get loc = fs.get loc
  nextIno : fs.nextIno ≤ fs'.nextIno
  inode : ∀ ino < fs.nextIno, fs'.inode ino = fs.inode ino

omit [DecidableEq ν] in
/-- A path leads through one child of a directory only. -/
theorem child_name_eq {path below : Loc ν} {n m : ν}
    (h : path ++ [n] <+: path ++ [m] ++ below) : n = m := by
  rw [List.append_assoc, List.prefix_append_right_inj] at h
  rcases h with ⟨rest, heq⟩
  exact (List.cons.inj heq).1

/-- What stands below other names is left alone. -/
theorem Frame.below {fs fs' : Fs ν} {path : Loc ν} {names : List ν} (h : Frame fs fs' path names)
    {m : ν} (hm : m ∉ names) (below : Loc ν) :
    fs'.get (path ++ [m] ++ below) = fs.get (path ++ [m] ++ below) := by
  refine h.get _ fun n hn hprefix => ?_
  exact hm (child_name_eq hprefix ▸ hn)

/-- Two effects on the entries of one directory are an effect on all of them. -/
theorem Frame.append {fs fs₁ fs' : Fs ν} {path : Loc ν} {xs ys : List ν}
    (h : Frame fs fs₁ path xs) (h' : Frame fs₁ fs' path ys) : Frame fs fs' path (xs ++ ys) where
  get loc hloc := by
    rw [h'.get loc fun n hn => hloc n (List.mem_append_right xs hn),
      h.get loc fun n hn => hloc n (List.mem_append_left ys hn)]
  nextIno := h.nextIno.trans h'.nextIno
  inode ino hino := by
    rw [h'.inode ino (lt_of_lt_of_le hino h.nextIno), h.inode ino hino]

/-- What was free below other names still is. -/
theorem Frame.free {fs fs' : Fs ν} {path : Loc ν} {name : ν} {names : List ν}
    (h : Frame fs fs' path [name]) (hname : name ∉ names)
    (hfree : ∀ n ∈ names, ∀ below, fs.get (path ++ [n] ++ below) = none) :
    ∀ n ∈ names, ∀ below, fs'.get (path ++ [n] ++ below) = none := by
  intro n hn below
  have hne : n ∉ [name] := by
    intro hmem
    rw [List.mem_singleton.mp hmem] at hn
    exact hname hn
  rw [h.below hne below]
  exact hfree n hn below

/-- What happens inside one entry happens below its name. -/
theorem Frame.widen {fs fs' : Fs ν} {path : Loc ν} {name : ν} {names : List ν}
    (h : Frame fs fs' (path ++ [name]) names) : Frame fs fs' path [name] where
  get loc hloc := by
    refine h.get loc fun n _ hprefix => hloc name List.mem_cons_self ?_
    exact (List.prefix_append _ _).trans hprefix
  nextIno := h.nextIno
  inode := h.inode

/-- A forest stands where nothing of it was touched. -/
theorem Holds.frame {fs fs' : Fs ν} {path : Loc ν} {forest : Forest ν} (h : forest.Holds fs path)
    (hget : ∀ n ∈ forest.names, ∀ below,
      fs'.get (path ++ [n] ++ below) = fs.get (path ++ [n] ++ below))
    (hnext : fs.nextIno ≤ fs'.nextIno)
    (hinode : ∀ ino < fs.nextIno, fs'.inode ino = fs.inode ino) :
    forest.Holds fs' path := by
  induction forest generalizing path with
  | nil => trivial
  | file name mode data rest ih =>
      rcases h with ⟨⟨ino, hfile, hino, hdata⟩, hrest⟩
      refine ⟨⟨ino, ?_, by omega, (hinode ino hino).trans hdata⟩, ih hrest ?_⟩
      · simpa [hfile] using hget name (by simp [names]) []
      · exact fun n hn => hget n (by simp [names, hn])
  | dir name mode children rest ihc ih =>
      -- the paths below a directory are paths below its own entry
      rcases h with ⟨hdir, honly, hchildren, hrest⟩
      have hname := hget name (by simp [names])
      refine ⟨?_, ?_, ihc hchildren ?_, ih hrest ?_⟩
      · simpa [hdir] using hname []
      · intro n hn
        rw [hname [n]] at hn
        exact honly n hn
      · intro n _ below
        simpa using hname ([n] ++ below)
      · exact fun n hn => hget n (by simp [names, hn])

/-! ## Building -/

/-- A new entry of a directory is below its name. -/
theorem frame_entry {fs fs' : Fs ν} {path : Loc ν} {name : ν} {obj : Obj ν}
    (hget : ∀ l, fs'.get l = if l = path ++ [name] then some obj else fs.get l)
    (hnext : fs.nextIno ≤ fs'.nextIno)
    (hinode : ∀ ino < fs.nextIno, fs'.inode ino = fs.inode ino) : Frame fs fs' path [name] where
  get loc hloc := by
    rw [hget, if_neg]
    rintro rfl
    exact hloc name List.mem_cons_self (List.prefix_refl _)
  nextIno := hnext
  inode := hinode

/-- A file in a free place. -/
theorem build_file {fs : Fs ν} {path : Loc ν} {name : ν} (hfree : fs.get (path ++ [name]) = none)
    (data : List UInt8) (mode : Nat) :
    ∃ fs', runEffects fs (putFile (path ++ [name]) data (mode &&& 0o777)) = some fs' ∧
      Frame fs fs' path [name] ∧ (file name (mode &&& 0o777) data nil).Holds fs' path := by
  have hloc := Fs.ne_nil_of_get_eq_none hfree
  have hnew : ∀ l, (fs.newFile (path ++ [name]) data).get l =
      if l = path ++ [name] then some (.file fs.nextIno) else fs.get l := Fs.get_newFile hloc
  have hget : (fs.newFile (path ++ [name]) data).get (path ++ [name]) =
      some (.file fs.nextIno) := by
    rw [hnew, if_pos rfl]
  refine ⟨(fs.newFile (path ++ [name]) data).setInode fs.nextIno ⟨data, mode &&& 0o777⟩, ?_,
    frame_entry hnew (Nat.le_succ _) ?_, ⟨⟨fs.nextIno, hget, Nat.lt_succ_self _, ?_⟩, trivial⟩⟩
  · simp [putFile, runEffects, Effect.run, hfree, hget, Fs.chmodAt]
    simp [Fs.newFile]
  · intro ino hino
    have hne : ino ≠ fs.nextIno := by omega
    simp [Fs.setInode, Fs.newFile, hne]
  · simp [Fs.setInode]

/-- A directory in a free place. -/
theorem build_directory {fs : Fs ν} {loc : Loc ν} (hfree : fs.get loc = none) (mode : Nat) :
    ∃ fs', runEffects fs (newDirectory loc (mode &&& 0o777)) = some fs' ∧
      (∀ l, fs'.get l = if l = loc then some (.dir (mode &&& 0o777)) else fs.get l) ∧
      fs'.nextIno = fs.nextIno ∧ fs'.inode = fs.inode := by
  have hloc := Fs.ne_nil_of_get_eq_none hfree
  have hget : (fs.set loc (.dir 0o755)).get loc = some (.dir 0o755) := by
    rw [Fs.get_set _ _ hloc, if_pos rfl]
  refine ⟨(fs.set loc (.dir 0o755)).set loc (.dir (mode &&& 0o777)), ?_, ?_, rfl, rfl⟩
  · simp [newDirectory, runEffects, Effect.run, hfree, hget, Fs.chmodAt]
  · intro l
    rw [Fs.get_set _ _ hloc, Fs.get_set _ _ hloc]
    split <;> rfl

/-- A directory in a free place, with what is built inside it. -/
theorem build_tree {fs : Fs ν} {path : Loc ν} {name : ν} {children : Forest ν}
    (hfree : ∀ below, fs.get (path ++ [name] ++ below) = none) (mode : Nat)
    (hinside : ∀ fs₁ : Fs ν,
      (∀ n ∈ children.names, ∀ below, fs₁.get (path ++ [name] ++ [n] ++ below) = none) →
      ∃ fs', runEffects fs₁ (children.effects (path ++ [name])) = some fs' ∧
        Frame fs₁ fs' (path ++ [name]) children.names ∧
        children.masked.Holds fs' (path ++ [name])) :
    ∃ fs', runEffects fs (newDirectory (path ++ [name]) (mode &&& 0o777) ++
        children.effects (path ++ [name])) = some fs' ∧
      Frame fs fs' path [name] ∧
      (dir name (mode &&& 0o777) children.masked nil).Holds fs' path := by
  -- first the directory, which is empty
  rcases build_directory (by simpa using hfree []) mode with ⟨fs₁, hrun₁, hget₁, hnext₁, hinode₁⟩
  have hfree₁ : ∀ n below, fs₁.get (path ++ [name] ++ [n] ++ below) = none := by
    intro n below
    rw [hget₁, if_neg (by simp)]
    simpa using hfree ([n] ++ below)
  -- then its children
  rcases hinside fs₁ fun n _ below => hfree₁ n below with ⟨fs', hrun, hframe, hholds⟩
  have hframe₁ : Frame fs fs₁ path [name] :=
    frame_entry hget₁ hnext₁.ge fun ino _ => by rw [hinode₁]
  refine ⟨fs', ?_, ⟨?_, ?_, ?_⟩, ?_, ?_, hholds, trivial⟩
  · rw [runEffects_append, hrun₁, Option.bind_some, hrun]
  · intro loc hloc
    rw [hframe.widen.get loc hloc, hframe₁.get loc hloc]
  · exact hframe₁.nextIno.trans hframe.nextIno
  · exact (hframe₁.append hframe.widen).inode
  · rw [hframe.get, hget₁, if_pos rfl]
    intro n _ hprefix
    have := hprefix.length_le
    simp at this
  · -- nothing but the children is there
    intro n hn
    rw [names_masked]
    by_contra hnot
    have hsame := hframe.below hnot []
    rw [hfree₁ n []] at hsame
    simp only [List.append_nil] at hsame
    exact hn hsame

/-- An entry, and then the others. -/
theorem build_append {fs fs₁ : Fs ν} {path : Loc ν} {name : ν} {entry rest : Forest ν}
    {effects : List (Effect ν)} (hnames : entry.names = [name]) (hname : name ∉ rest.names)
    (hrun₁ : runEffects fs effects = some fs₁) (hframe₁ : Frame fs fs₁ path [name])
    (hentry : entry.Holds fs₁ path)
    (hrest : ∃ fs', runEffects fs₁ (rest.effects path) = some fs' ∧
      Frame fs₁ fs' path rest.names ∧ rest.masked.Holds fs' path) :
    ∃ fs', runEffects fs (effects ++ rest.effects path) = some fs' ∧
      Frame fs fs' path (name :: rest.names) ∧ entry.Holds fs' path ∧
      rest.masked.Holds fs' path := by
  rcases hrest with ⟨fs', hrun, hframe, hholds⟩
  refine ⟨fs', ?_, hframe₁.append hframe, hentry.frame ?_ hframe.nextIno hframe.inode, hholds⟩
  · rw [runEffects_append, hrun₁, Option.bind_some, hrun]
  · intro n hn below
    obtain rfl : n = name := by simpa [hnames] using hn
    exact hframe.below hname below

/-- Where nothing stands, the calls of a forest build it, and leave the rest alone. -/
theorem runEffects_effects {fs : Fs ν} {path : Loc ν} {forest : Forest ν}
    (hdistinct : forest.Distinct)
    (hfree : ∀ n ∈ forest.names, ∀ below, fs.get (path ++ [n] ++ below) = none) :
    ∃ fs', runEffects fs (forest.effects path) = some fs' ∧ Frame fs fs' path forest.names ∧
      forest.masked.Holds fs' path := by
  induction forest generalizing fs path with
  | nil => exact ⟨fs, rfl, ⟨fun _ _ => rfl, le_rfl, fun _ _ => rfl⟩, trivial⟩
  | file name mode data rest ih =>
      -- each entry is built where nothing is yet, and the rest beside it
      have hname := hfree name List.mem_cons_self
      have hothers := fun n hn => hfree n (List.mem_cons_of_mem name hn)
      rcases build_file (by simpa using hname []) data mode with ⟨fs₁, hrun₁, hframe₁, hentry⟩
      rcases build_append rfl hdistinct.1 hrun₁ hframe₁ hentry
        (ih hdistinct.2 (hframe₁.free hdistinct.1 hothers)) with ⟨fs', hrun, hframe, hfile, hrest⟩
      exact ⟨fs', hrun, hframe, hfile.1, hrest⟩
  | dir name mode children rest ihc ih =>
      have hname := hfree name List.mem_cons_self
      have hothers := fun n hn => hfree n (List.mem_cons_of_mem name hn)
      rcases build_tree hname mode fun fs₁ hfree₁ => ihc hdistinct.2.1 hfree₁ with
        ⟨fs₁, hrun₁, hframe₁, hentry⟩
      rcases build_append rfl hdistinct.1 hrun₁ hframe₁ hentry
        (ih hdistinct.2.2 (hframe₁.free hdistinct.1 hothers)) with
        ⟨fs', hrun, hframe, hdir, hrest⟩
      rw [List.append_assoc] at hrun
      exact ⟨fs', hrun, hframe, hdir.1, hdir.2.1, hdir.2.2.1, hrest⟩

/-! ## The same tree -/

/-- Every directory lists its entries in the order of their names. -/
def Ordered (N : OsNames ν) : Forest ν → Prop
  | nil => True
  | file _ _ _ rest => rest.Ordered N
  | dir _ _ children rest =>
      children.names.Pairwise (fun a b => N.le a b = true) ∧ children.Ordered N ∧ rest.Ordered N

theorem sorted_perm (N : OsNames ν) (fs : Fs ν) (path : Loc ν) :
    (sorted N fs path).Perm (fs.children path) :=
  List.perm_insertionSort _ _

theorem sorted_pairwise (N : OsNames ν) (fs : Fs ν) (path : Loc ν) :
    (sorted N fs path).Pairwise fun a b => N.le a b = true := by
  have htotal : Std.Total fun a b => N.le a b = true := ⟨N.le_total⟩
  have htrans : IsTrans ν fun a b => N.le a b = true := ⟨N.le_trans⟩
  exact List.pairwise_insertionSort _ _

/-- In a tree that stands, the names of a directory are distinct. -/
theorem Stands.distinct {N : OsNames ν} {fs : Fs ν} {path : Loc ν} {forest : Forest ν}
    (h : forest.Stands N fs path) (hnodup : forest.names.Nodup) : forest.Distinct := by
  induction forest generalizing path with
  | nil => trivial
  | file name mode data rest ih =>
      rcases List.nodup_cons.mp hnodup with ⟨hname, hrest⟩
      exact ⟨hname, ih h.2 hrest⟩
  | dir name mode children rest ihc ih =>
      rcases List.nodup_cons.mp hnodup with ⟨hname, hrest⟩
      rcases h with ⟨-, hsorted, hchildren, hstands⟩
      have hinside : children.names.Nodup := by
        rw [← hsorted, (sorted_perm N fs _).nodup_iff]
        exact fs.children_nodup _
      exact ⟨hname, ihc hchildren hinside, ih hstands hrest⟩

/-- In a tree that stands, the entries of a directory are in order, as the source lists them. -/
theorem Stands.ordered {N : OsNames ν} {fs : Fs ν} {path : Loc ν} {forest : Forest ν}
    (h : forest.Stands N fs path) : forest.Ordered N := by
  induction forest generalizing path with
  | nil => trivial
  | file name mode data rest ih => exact ih h.2
  | dir name mode children rest ihc ih =>
      rcases h with ⟨-, hsorted, hchildren, hstands⟩
      exact ⟨hsorted ▸ sorted_pairwise N fs _, ihc hchildren, ih hstands⟩

/-- Each name of a forest that stands is there. -/
theorem Holds.get_ne_none {fs : Fs ν} {path : Loc ν} {forest : Forest ν} (h : forest.Holds fs path)
    {n : ν} (hn : n ∈ forest.names) : fs.get (path ++ [n]) ≠ none := by
  induction forest with
  | nil => cases hn
  | file name mode data rest ih =>
      rcases List.mem_cons.mp hn with rfl | hn
      · rcases h.1 with ⟨ino, hfile, -⟩
        simp [hfile]
      · exact ih h.2 hn
  | dir name mode children rest _ ih =>
      rcases List.mem_cons.mp hn with rfl | hn
      · simp [h.1]
      · exact ih h.2.2.2 hn

/-- A directory with exactly these entries lists them in their order. -/
theorem sorted_eq_names {N : OsNames ν} {fs : Fs ν} {path : Loc ν} {forest : Forest ν}
    (hholds : forest.Holds fs path) (honly : ∀ n, fs.get (path ++ [n]) ≠ none → n ∈ forest.names)
    (hnodup : forest.names.Nodup)
    (hordered : forest.names.Pairwise fun a b => N.le a b = true) :
    sorted N fs path = forest.names := by
  have hperm : (fs.children path).Perm forest.names := by
    refine (List.perm_ext_iff_of_nodup (fs.children_nodup path) hnodup).mpr fun n => ?_
    rw [Fs.mem_children]
    exact ⟨honly n, hholds.get_ne_none⟩
  refine List.Perm.eq_of_pairwise ?_ (sorted_pairwise N fs path) hordered
    ((sorted_perm N fs path).trans hperm)
  intro a b _ _
  exact N.le_antisymm a b

omit [DecidableEq ν] in
theorem Distinct.nodup {forest : Forest ν} (h : forest.Distinct) : forest.names.Nodup := by
  induction forest with
  | nil => exact List.nodup_nil
  | file name mode data rest ih => exact List.nodup_cons.mpr ⟨h.1, ih h.2⟩
  | dir name mode children rest _ ih => exact List.nodup_cons.mpr ⟨h.1, ih h.2.2⟩

/-- What was built from a forest that stands in one tree stands in the other. -/
theorem Holds.stands {N : OsNames ν} {fs : Fs ν} {path : Loc ν} {forest : Forest ν}
    (h : forest.masked.Holds fs path) (hdistinct : forest.Distinct) (hordered : forest.Ordered N) :
    forest.masked.Stands N fs path := by
  induction forest generalizing path with
  | nil => trivial
  | file name mode data rest ih =>
      rcases h with ⟨⟨ino, hfile, -, hdata⟩, hrest⟩
      exact ⟨⟨ino, hfile, hdata⟩, ih hrest hdistinct.2 hordered⟩
  | dir name mode children rest ihc ih =>
      rcases h with ⟨hdir, honly, hchildren, hrest⟩
      refine ⟨hdir, ?_, ihc hchildren hdistinct.2.1 hordered.2.1,
        ih hrest hdistinct.2.2 hordered.2.2⟩
      refine sorted_eq_names hchildren honly ?_ ?_
      · rw [names_masked]
        exact hdistinct.2.1.nodup
      · rw [names_masked]
        exact hordered.1

end Forest

end Rssh.Scp
