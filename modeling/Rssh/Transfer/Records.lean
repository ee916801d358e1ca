import Rssh.Transfer.Sink

/-!
# What a stream of SCP records asks for

The records of a byte stream, read off it without regard to messages, flags or
acknowledgements, and what each of them asks of the file system at its place. `plan` puts
the two together: the records are taken one after the other for as long as they are
complete and well formed, and placed for as long as they are allowed.

* `receiveSink_plan`: on a calm system a sink does to the tree what the plan says, in its
  order and nothing else, and succeeds exactly if the plan uses up the stream.
-/

namespace Rssh.Scp

open Posix

/-! ## Records -/

inductive Record where
  | times
  | directory (mode : Nat) (name : List Char)
  | close
  | file (mode : Nat) (name : List Char) (data : List UInt8)
deriving DecidableEq, Repr

/-- The first line of a stream, with its newline, and what follows. -/
def takeLine (stream : List UInt8) : Option (List UInt8 × List UInt8) :=
  match stream.dropWhile (· ≠ 10) with
  | [] => none
  | newline :: rest =>
      if (stream.takeWhile (· ≠ 10)).length < maxControlLine then
        some (stream.takeWhile (· ≠ 10) ++ [newline], rest)
      else none

/-- A `D` line. -/
def directoryRecord (line : List UInt8) : Option Record :=
  match parseControl line 68 with
  | none => none
  | some control =>
      if control.size = 0 then
        (portableControlName control.name).map fun name => .directory control.mode name
      else none

/-- A `C` line, with the content and the zero byte that follow it. -/
def fileRecord (line rest : List UInt8) : Option (Record × List UInt8) :=
  match parseControl line 67 with
  | none => none
  | some control =>
      match portableControlName control.name with
      | none => none
      | some name =>
          if control.size ≤ maxFileSize ∧ (rest.drop control.size).head? = some 0 then
            some (.file control.mode name (rest.take control.size), rest.drop (control.size + 1))
          else none

/-- The record of a line. -/
def recordOf (line rest : List UInt8) : Option (Record × List UInt8) :=
  if line.head? = some 84 then
    if parseTimes line then some (.times, rest) else none
  else if line.head? = some 68 then (directoryRecord line).map fun record => (record, rest)
  else if line = [69, 10] then some (.close, rest)
  else if line.head? = some 67 then fileRecord line rest
  else none

/-- The first record of a stream, if it is well formed and complete. -/
def takeRecord (stream : List UInt8) : Option (Record × List UInt8) :=
  match takeLine stream with
  | none => none
  | some (line, rest) => recordOf line rest

/-! ## Placing them -/

/-- A call that changes the tree. -/
inductive Effect (ν : Type) where
  | createDir (loc : Loc ν)
  | write (loc : Loc ν) (data : List UInt8)
  | setPermissions (loc : Loc ν) (mode : Nat)
deriving DecidableEq, Repr

variable {ν : Type} [DecidableEq ν]

/-- What the call does, if it succeeds. -/
def Effect.run (fs : Fs ν) : Effect ν → Option (Fs ν)
  | .createDir loc =>
      match fs.get loc with
      | none => some (fs.set loc (.dir 0o755))
      | some _ => none
  | .write loc data =>
      match fs.get loc with
      | none => some (fs.newFile loc data)
      | some (.file ino) => some (fs.setInode ino { fs.inode ino with data })
      | some .special => some fs
      | some (.dir _) => none
      | some (.link _) => none
  | .setPermissions loc mode =>
      match fs.get loc with
      | none => none
      | some _ => some (fs.chmodAt loc mode)

/-- What the calls do one after the other, if all succeed. -/
def runEffects (fs : Fs ν) (effects : List (Effect ν)) : Option (Fs ν) :=
  effects.foldlM Effect.run fs

omit [DecidableEq ν] in
/-- The calls for a new directory. -/
def newDirectory (loc : Loc ν) (mode : Nat) : List (Effect ν) :=
  [.createDir loc, .setPermissions loc (mode &&& 0o777)]

omit [DecidableEq ν] in
/-- The calls for a new or overwritten file. -/
def putFile (loc : Loc ν) (data : List UInt8) (mode : Nat) : List (Effect ν) :=
  [.write loc data, .setPermissions loc (mode &&& 0o777)]

/-- What a record asks for at its place, and the place after it; nothing where it is not
allowed. -/
def Record.place (N : OsNames ν) (recursive : Bool) (sink : Sink ν) :
    Record → Option (Sink ν × List (Effect ν))
  | .times => some (sink, [])
  | .directory mode name =>
      if sink.forcedFile = none ∧ recursive = true ∧ sink.depth < maxRecursionDepth then
        let loc := sink.current ++ [N.ofText name]
        some ({ sink with current := loc, above := sink.current :: sink.above },
          newDirectory loc mode)
      else none
  | .close =>
      match sink.above with
      | [] => none
      | parent :: above => some ({ sink with current := parent, above }, [])
  | .file mode name data =>
      let loc := sink.forcedFile.getD (sink.current ++ [N.ofText name])
      some ({ sink with forcedFile := none }, putFile loc data mode)

/-- The acknowledgements for a record. -/
def Record.acks : Record → Nat
  | .times => 1
  | .directory _ _ => 1
  | .close => 1
  | .file _ _ _ => 2

/-! ## The plan of a stream -/

/-- The effects that are asked for, the place reached, the records from the first that is
not allowed on, and the rest of the stream from the first record on that is malformed or
cut short. -/
structure Plan (ν : Type) where
  effects : List (Effect ν)
  sink : Sink ν
  refused : List Record
  rest : List UInt8

/-- Nothing is left, nothing is open, and the forced file is written. -/
def Plan.Complete (plan : Plan ν) : Prop :=
  plan.rest = [] ∧ plan.refused = [] ∧ plan.sink.above = [] ∧ plan.sink.forcedFile = none

instance (plan : Plan ν) : Decidable plan.Complete :=
  inferInstanceAs (Decidable (_ ∧ _ ∧ _ ∧ _))

/-- Place records one after the other. -/
def placeAll (N : OsNames ν) (recursive : Bool) (rest : List UInt8) :
    Sink ν → List Record → Plan ν
  | sink, [] => ⟨[], sink, [], rest⟩
  | sink, record :: records =>
      match record.place N recursive sink with
      | none => ⟨[], sink, record :: records, rest⟩
      | some (sink', effects) =>
          let plan := placeAll N recursive rest sink' records
          { plan with effects := effects ++ plan.effects }

/-! ## Lines -/

section Lines

/-- A line is taken up to its newline, if it is not too long. -/
theorem takeLine_line {line : List UInt8} (hline : 10 ∉ line) (rest : List UInt8) :
    takeLine (line ++ 10 :: rest) =
      if line.length < maxControlLine then some (line ++ [10], rest) else none := by
  have hall : ∀ b ∈ line, decide (b ≠ 10) = true := by
    rintro b hb
    simp only [decide_eq_true_eq]
    rintro rfl
    exact hline hb
  have htake : (line ++ 10 :: rest).takeWhile (· ≠ 10) = line := by
    rw [List.takeWhile_append_of_pos hall]
    simp
  have hdrop : (line ++ 10 :: rest).dropWhile (· ≠ 10) = 10 :: rest := by
    rw [List.dropWhile_append_of_pos hall]
    simp
  simp only [takeLine, htake, hdrop]

theorem takeLine_of_notMem {stream : List UInt8} (h : 10 ∉ stream) : takeLine stream = none := by
  have hdrop : stream.dropWhile (· ≠ 10) = [] := by
    rw [List.dropWhile_eq_nil_iff]
    rintro b hb
    simp only [decide_eq_true_eq]
    rintro rfl
    exact h hb
  simp only [takeLine, hdrop]

/-- How a stream begins: with a line, with more than a line may hold, or it ends first. -/
theorem takeLine_cases (stream : List UInt8) :
    (∃ line rest, stream = line ++ 10 :: rest ∧ 10 ∉ line ∧ line.length < maxControlLine ∧
      takeLine stream = some (line ++ [10], rest)) ∨
    (∃ line rest, stream = line ++ rest ∧ 10 ∉ line ∧ line.length = maxControlLine ∧
      takeLine stream = none) ∨
    10 ∉ stream ∧ stream.length < maxControlLine ∧ takeLine stream = none := by
  -- a stream that is long enough has a part without a newline as long as the limit
  have hlong : ∀ line tail : List UInt8, 10 ∉ line → maxControlLine ≤ line.length →
      ∃ line' rest, line ++ tail = line' ++ rest ∧ 10 ∉ line' ∧ line'.length = maxControlLine := by
    intro line tail hline hlength
    refine ⟨line.take maxControlLine, line.drop maxControlLine ++ tail, ?_, ?_, ?_⟩
    · rw [← List.append_assoc, List.take_append_drop]
    · exact fun hmem => hline (List.mem_of_mem_take hmem)
    · rw [List.length_take]
      omega
  -- a whole line, one that is too long, or the start of one
  by_cases hmem : 10 ∈ stream
  · rcases List.eq_append_cons_of_mem hmem with ⟨line, rest, rfl, hline⟩
    by_cases hlength : line.length < maxControlLine
    · refine .inl ⟨line, rest, rfl, hline, hlength, ?_⟩
      rw [takeLine_line hline, if_pos hlength]
    · rcases hlong line (10 :: rest) hline (by omega) with ⟨line', rest', heq, hline', hlength'⟩
      refine .inr (.inl ⟨line', rest', heq, hline', hlength', ?_⟩)
      rw [takeLine_line hline, if_neg hlength]
  · by_cases hlength : stream.length < maxControlLine
    · exact .inr (.inr ⟨hmem, hlength, takeLine_of_notMem hmem⟩)
    · rcases hlong stream [] hmem (by omega) with ⟨line', rest', heq, hline', hlength'⟩
      rw [List.append_nil] at heq
      exact .inr (.inl ⟨line', rest', heq, hline', hlength', takeLine_of_notMem hmem⟩)

/-- Taking a line makes the stream shorter. -/
theorem takeLine_length {stream line rest : List UInt8} (h : takeLine stream = some (line, rest)) :
    rest.length < stream.length := by
  rcases takeLine_cases stream with ⟨_, _, rfl, -, -, hline⟩ | ⟨_, _, -, -, -, hnone⟩ |
    ⟨-, -, hnone⟩
  · rw [hline] at h
    cases h
    simp
    omega
  · rw [hnone] at h
    cases h
  · rw [hnone] at h
    cases h

/-- A record takes something off the stream. -/
theorem takeRecord_length {stream rest : List UInt8} {record : Record}
    (h : takeRecord stream = some (record, rest)) : rest.length < stream.length := by
  simp only [takeRecord] at h
  split at h
  · cases h
  · rename_i line rest' hline
    -- what a record takes behind its line is not given back
    have hle : rest.length ≤ rest'.length := by
      simp only [recordOf] at h
      split_ifs at h
      · cases h
        exact le_rfl
      · rcases Option.map_eq_some_iff.mp h with ⟨_, -, heq⟩
        cases heq
        exact le_rfl
      · cases h
        exact le_rfl
      · simp only [fileRecord] at h
        split at h
        · cases h
        · split at h
          · cases h
          · split_ifs at h
            cases h
            simp
    have := takeLine_length hline
    omega

end Lines

/-- The records at the head of a stream, as long as they are complete and well formed, and
the rest. -/
def records (stream : List UInt8) : List Record × List UInt8 :=
  match _h : takeRecord stream with
  | none => ([], stream)
  | some (record, rest) => (record :: (records rest).1, (records rest).2)
termination_by stream.length
decreasing_by all_goals exact takeRecord_length ‹takeRecord stream = _›

/-- A stream without a record at its head has no records. -/
theorem records_none {stream : List UInt8} (h : takeRecord stream = none) :
    records stream = ([], stream) := by
  rw [records]
  split
  · rfl
  · rename_i heq
    rw [h] at heq
    cases heq

/-- A record at the head comes before the others. -/
theorem records_some {stream rest : List UInt8} {record : Record}
    (h : takeRecord stream = some (record, rest)) :
    records stream = (record :: (records rest).1, (records rest).2) := by
  rw [records]
  split
  · rename_i heq
    rw [h] at heq
    cases heq
  · rename_i heq
    rw [h] at heq
    cases heq
    rfl

/-- What a stream asks of a sink. -/
def plan (N : OsNames ν) (recursive : Bool) (sink : Sink ν) (stream : List UInt8) : Plan ν :=
  placeAll N recursive (records stream).2 sink (records stream).1

/-! ## A sink between two records -/

/-- What is left of the stream, which the peer ends, what was sent, and the tree; neither the
channel nor the system has failures to come. -/
structure At (stream : List UInt8) (sent : List (List UInt8)) (fs : Fs ν) (w : World ν) :
    Prop where
  remaining : w.wire.remaining = stream
  ends : endsInput w.wire.events = true
  endOfInput : w.wire.endOfInput = false
  sends : ∀ n, w.wire.sendFails n = false
  sent : w.wire.sent = sent
  calm : Calm fs w.os

section Rules

variable {stream : List UInt8} {sent : List (List UInt8)} {fs fs' : Fs ν} {α : Type}
  {E : World ν → Prop}

omit [DecidableEq ν]

theorem At.tree {w : World ν} (h : At stream sent fs w) : w.os.fs = fs := h.calm.1

/-- What the wire has taken is gone from the stream. -/
theorem At.took {w : World ν} {bytes rest : List UInt8} {wire : ScpWire}
    (h : At (bytes ++ rest) sent fs w) (htook : w.wire.Took bytes wire) :
    At rest sent fs { w with wire } where
  remaining := List.append_cancel_left (htook.remaining.symm.trans h.remaining)
  ends := htook.ends.trans h.ends
  endOfInput := htook.endOfInput.trans h.endOfInput
  sends := by simpa only [htook.sendFails] using h.sends
  sent := htook.sent.trans h.sent
  calm := h.calm

theorem sendAck_at :
    Triple (At stream sent fs) sendAck (fun _ => At stream (sent ++ [[0]]) fs) E := by
  intro w hw
  simp only [sendAck, onWire, ScpWire.send, hw.sends, Bool.false_eq_true, if_false]
  exact ⟨hw.remaining, hw.ends, hw.endOfInput, hw.sends, by simp [hw.sent], hw.calm⟩

theorem readExact_at {data rest : List UInt8} :
    Triple (At (data ++ rest) sent fs) (onWire (ScpWire.readExact [] data.length))
      (fun bytes w => bytes = data ∧ At rest sent fs w) E := by
  intro w hw
  rcases ScpWire.readExact_ok [] hw.remaining with ⟨wire, hread, htook, -⟩
  simp only [onWire, hread]
  exact ⟨rfl, hw.took htook⟩

/-- A stream that is too short fails the read, and leaves the tree alone. -/
theorem readExact_at_cut {size : Nat} {Q : List UInt8 → World ν → Prop}
    (h : stream.length < size) :
    Triple (At stream sent fs) (onWire (ScpWire.readExact [] size)) Q
      (fun w => w.os.fs = fs) := by
  intro w hw
  rcases ScpWire.readExact_cut [] hw.ends (hw.remaining.symm ▸ h) with ⟨wire, hread, -⟩
  simp only [onWire, hread]
  exact hw.tree

/-- The byte at the head of the stream is read. -/
theorem readByte_at {byte : UInt8} {rest : List UInt8} :
    Triple (At (byte :: rest) sent fs) (onWire ScpWire.readByte)
      (fun b w => b = byte ∧ At rest sent fs w) E := by
  intro w hw
  rcases ScpWire.readByte_cons hw.remaining with ⟨wire, hread, htook, -⟩
  have hw' : At ([byte] ++ rest) sent fs w := hw
  simp only [onWire, hread]
  exact ⟨trivial, hw'.took htook⟩

theorem readByte_at_end {Q : UInt8 → World ν → Prop} :
    Triple (At [] sent fs) (onWire ScpWire.readByte) Q (fun w => w.os.fs = fs) := by
  intro w hw
  rcases ScpWire.readByte_nil hw.remaining hw.ends with ⟨events, hread⟩
  simp only [onWire, hread]
  exact hw.tree

variable (stream sent) in
/-- A program of the file system does not move the stream. -/
theorem onFs_at {f : FsM ν α} {Q : α → Prop} {F : Os ν → Prop}
    (h : Triple (Calm fs) f (fun a os => Q a ∧ Calm fs' os) F) :
    Triple (At stream sent fs) (onFs f) (fun a w => Q a ∧ At stream sent fs' w)
      (fun w => F w.os) := by
  intro w hw
  have hf := h w.os hw.calm
  simp only [onFs]
  cases hrun : f w.os with
  | ok value os =>
      rw [hrun] at hf
      exact ⟨hf.1, hw.remaining, hw.ends, hw.endOfInput, hw.sends, hw.sent, hf.2⟩
  | error error os =>
      rw [hrun] at hf
      exact hf

end Rules

/-! ## Calls on a calm system -/

section Calls

variable {root : Loc ν} {fs : Fs ν} {F : Os ν → Prop}

omit [DecidableEq ν] in
theorem observe_calm_ok {α : Type} {look : Fs ν → Except Errno α} {value : α}
    (h : look fs = .ok value) :
    Triple (Calm fs) (fsCall (observe look)) (fun a os => a = value ∧ Calm fs os) F := by
  refine fsCall_triple ?_
  rintro os ⟨rfl, hfault⟩
  simp only [observe, syscall, hfault, h, Except.map]
  exact ⟨trivial, rfl, hfault⟩

theorem canonicalize_calm {path : List (Seg ν)} {loc : Loc ν}
    (h : fs.canonicalize path = .ok loc) :
    Triple (Calm fs) (fsCall (observe (·.canonicalize path)))
      (fun a os => a = loc ∧ Calm fs os) F :=
  observe_calm_ok h

omit [DecidableEq ν] in
/-- On a calm system a look that may fail answers what the tree says. -/
theorem fsTry_observe_calm {α : Type} {look : Fs ν → Except Errno α} {result : Except Errno α}
    (h : look fs = result) :
    Triple (Calm fs) (fsTry (observe look)) (fun a os => a = result ∧ Calm fs os) F := by
  subst h
  rintro os ⟨rfl, hfault⟩
  simp only [fsTry, observe, syscall, hfault]
  cases hlook : look os.fs with
  | ok value => exact ⟨rfl, rfl, hfault⟩
  | error errno => exact ⟨rfl, rfl, hfault⟩

/-- In a directory of the root there is a place for every name that is no link. -/
theorem resolveForCreate_calm {dir : Loc ν} (n : ν) (hroot : root <+: dir) (hsolid : fs.Solid dir) :
    Triple (Calm fs)
      (resolveForCreate root (RelPath.ofNames (dir.drop root.length ++ [n])))
      (fun loc os => (loc = dir ++ [n] ∧ fs.Plain loc) ∧ Calm fs os)
      (fun os => (∃ text, fs.get (dir ++ [n]) = some (.link text)) ∧ os.fs = fs) := by
  -- the path from the root is made of names alone
  have hvalid : validateRelative (RelPath.ofNames (dir.drop root.length ++ [n])) = true := by
    have hup : ∀ names : List ν, Seg.up ∉ Loc.path names := by
      simp [Loc.path]
    simp [validateRelative, RelPath.ofNames, hup]
  have hjoined : root.path ++ (RelPath.ofNames (dir.drop root.length ++ [n])).segs =
      Loc.path (dir ++ [n]) := root_append_ofNames hroot n
  rcases hsolid.get with ⟨mode, hmode⟩
  have hparent : fs.canonicalize dir.path = .ok dir := Fs.canonicalize_plain hsolid.plain hmode
  have hlookup := Fs.lookup_child n hsolid
  refine (require_pos hvalid).bind fun _ => ?_
  refine (orReject_some (by rw [hjoined, parent?_path])).bind_eq ?_
  refine (canonicalize_calm hparent).bind_eq ?_
  refine (require_pos hroot).bind fun _ => ?_
  refine (orReject_some (by rw [hjoined, fileName?_path])).bind_eq ?_
  refine (fsTry_observe_calm hlookup).bind_eq ?_
  have hplain : (∀ text, fs.get (dir ++ [n]) ≠ some (.link text)) → fs.Plain (dir ++ [n]) :=
    hsolid.concat_plain
  cases hget : fs.get (dir ++ [n]) with
  -- the name is free
  | none => exact .pure fun os hos => ⟨⟨rfl, hplain (by simp [hget])⟩, hos⟩
  | some obj =>
      cases obj with
      | link text => exact reject_triple fun os hos => ⟨⟨text, rfl⟩, hos.1⟩
      | file | dir | special =>
          -- an object is there: its canonical path is its own
          have hnew := hplain (by simp [hget])
          refine (canonicalize_calm (Fs.canonicalize_plain hnew hget)).bind_eq ?_
          refine (require_pos (hroot.trans (List.prefix_append _ _))).bind fun _ => ?_
          exact .pure fun os hos => ⟨⟨rfl, hnew⟩, hos⟩

/-- A child is created under the last part of its name, unless a link stands there. -/
theorem createChild_calm (N : OsNames ν) {dir : Loc ν} {name leaf : List Char}
    (hname : portableControlName name = some leaf) (hroot : root <+: dir)
    (hsolid : fs.Solid dir) :
    Triple (Calm fs) (createChild N root dir name)
      (fun loc os => (loc = dir ++ [N.ofText leaf] ∧ fs.Plain loc) ∧ Calm fs os)
      (fun os => (∃ text, fs.get (dir ++ [N.ofText leaf]) = some (.link text)) ∧ os.fs = fs) := by
  have hrelative : childRelative N root dir name =
      some (RelPath.ofNames (dir.drop root.length ++ [N.ofText leaf])) := by
    simp only [childRelative, hname, hroot, if_true]
  exact (orReject_some hrelative).bind_eq (resolveForCreate_calm _ hroot hsolid)

/-- The place of a file is the forced one, or the child with its name. -/
theorem filePath_calm (N : OsNames ν) {sink : Sink ν} {leaf : List Char}
    (hname : validateName leaf = true) (hroot : root <+: sink.current)
    (hsolid : fs.Solid sink.current)
    (hforced : ∀ loc, sink.forcedFile = some loc → fs.Plain loc) {loc : Loc ν}
    (hloc : loc = sink.forcedFile.getD (sink.current ++ [N.ofText leaf])) :
    Triple (Calm fs) (filePath N root sink leaf)
      (fun path os => (path = loc ∧ fs.Plain loc) ∧ Calm fs os)
      (fun os => (∃ text, fs.get loc = some (.link text)) ∧ os.fs = fs) := by
  subst hloc
  unfold filePath
  split
  · rename_i path hfile
    rw [hfile, Option.getD_some]
    exact .pure fun os hos => ⟨⟨rfl, hforced path hfile⟩, hos⟩
  · rename_i hfile
    rw [hfile, Option.getD_none]
    refine (createChild_calm N (portableControlName_of_valid hname) hroot hsolid).weaken
      (fun _ hos => hos) ?_
    rintro path os ⟨⟨rfl, hplain⟩, hos⟩
    exact ⟨⟨rfl, hplain⟩, hos⟩

/-- The call of an effect. -/
def Effect.call : Effect ν → Fs ν → CallEffect ν Unit
  | .createDir loc, fs => fs.createDir loc.path
  | .write loc data, fs => fs.writeFile loc.path data
  | .setPermissions loc mode, fs => fs.setPermissions loc.path mode

omit [DecidableEq ν] in
def Effect.loc : Effect ν → Loc ν
  | .createDir loc => loc
  | .write loc _ => loc
  | .setPermissions loc _ => loc

/-- On a plain location a call does what its effect says. -/
theorem Effect.call_plain (effect : Effect ν) (h : fs.Plain effect.loc) :
    match effect.run fs with
    | some fs' => (effect.call fs).1 = .ok ((), fs')
    | none => ∃ errno, (effect.call fs).1 = .error errno := by
  cases effect with
  | createDir loc =>
      have hplain : fs.Plain loc := h
      have hcall := Fs.createDir_plain hplain
      -- each call sees of a plain location what stands there, as the effect does
      cases hget : fs.get loc with
      | none => simp [Effect.run, Effect.call, hcall, hget]
      | some obj => simp [Effect.run, Effect.call, hcall, hget]
  | write loc data =>
      have hplain : fs.Plain loc := h
      have hcall := Fs.writeFile_plain hplain data
      cases hget : fs.get loc with
      | none => simp [Effect.run, Effect.call, hcall, hget]
      | some obj => cases obj <;> simp [Effect.run, Effect.call, hcall, hget]
  | setPermissions loc mode =>
      have hplain : fs.Plain loc := h
      cases hget : fs.get loc with
      | some obj =>
          have hcall := Fs.setPermissions_plain hplain hget mode
          simp [Effect.run, Effect.call, hcall, hget]
      | none =>
          -- permissions of what is missing cannot be set
          rcases Fs.resolve_plain hplain true with ⟨obj, hsome, -⟩ | ⟨dir, n, -, -, hres⟩
          · rw [hget] at hsome
            cases hsome
          · simp [Effect.run, Effect.call, Fs.setPermissions, hget, hres]

/-- On a calm system an effect on a plain location is its call. -/
theorem effect_calm (effect : Effect ν) (h : fs.Plain effect.loc) :
    Triple (Calm fs) (fsCall (syscall effect.call))
      (fun _ os => ∃ fs', effect.run fs = some fs' ∧ Calm fs' os)
      (fun _ => effect.run fs = none) := by
  have hplain := effect.call_plain h
  refine fsCall_triple (((syscall_calm effect.call).weaken (fun _ hos => hos) ?_).fails ?_)
  · rintro value os ⟨fs', hcall, hos⟩
    -- the call has succeeded, so the effect is defined, with the same tree
    cases hrun : effect.run fs with
    | some fs'' =>
        simp only [hrun, hcall] at hplain
        cases hplain
        exact ⟨fs', rfl, hos⟩
    | none =>
        rw [hrun] at hplain
        rcases hplain with ⟨errno, herror⟩
        rw [hcall] at herror
        cases herror
  · -- the call has failed, so it is not
    rintro os ⟨⟨errno, hcall⟩, -⟩
    cases hrun : effect.run fs with
    | none => rfl
    | some fs' =>
        simp only [hrun, hcall] at hplain
        cases hplain

end Calls

/-! ## One record -/

/-- The open directories are directories of the root, and the names of the forced file lead
to it. -/
structure Good (root : Loc ν) (fs : Fs ν) (sink : Sink ν) : Prop where
  dirs : ∀ dir ∈ sink.current :: sink.above, root <+: dir ∧ fs.Solid dir
  forced : ∀ loc, sink.forcedFile = some loc → fs.Plain loc

section OneRecord

variable {root : Loc ν} {stream : List UInt8} {sent : List (List UInt8)} {fs : Fs ν}
  {sink : Sink ν}

/-- An effect does not move the stream. -/
theorem effect_at (effect : Effect ν) (h : fs.Plain effect.loc) :
    Triple (At stream sent fs) (onFs (fsCall (syscall effect.call)))
      (fun _ w => ∃ fs', effect.run fs = some fs' ∧ At stream sent fs' w)
      (fun _ => effect.run fs = none) := by
  intro w hw
  have hcall := effect_calm effect h w.os hw.calm
  simp only [onFs]
  cases hrun : fsCall (syscall effect.call) w.os with
  | ok value os =>
      rw [hrun] at hcall
      rcases hcall with ⟨fs', hfs', hcalm⟩
      exact ⟨fs', hfs', hw.remaining, hw.ends, hw.endOfInput, hw.sends, hw.sent, hcalm⟩
  | error error os =>
      rw [hrun] at hcall
      exact hcall

omit [DecidableEq ν] in
theorem expectAck_at {rest : List UInt8} {E : World ν → Prop} :
    Triple (At (0 :: rest) sent fs) expectAck (fun _ => At rest sent fs) E :=
  readByte_at.bind_eq (require_pos rfl)

omit [DecidableEq ν] in
/-- Any other byte, or none, is a failure. -/
theorem expectAck_at_other {Q : Unit → World ν → Prop} (h : stream.head? ≠ some 0) :
    Triple (At stream sent fs) expectAck Q (fun w => w.os.fs = fs) := by
  cases stream with
  | nil => exact readByte_at_end.bind_fails
  | cons byte rest =>
      have hbyte : byte ≠ 0 := by
        rintro rfl
        exact h rfl
      exact readByte_at.bind_eq (require_neg hbyte fun _ => At.tree)

/-- Two calls, one after the other, with a rest that cannot fail. -/
theorem pair_at {α : Type} (first second : Effect ν) {rest : ScpM ν α}
    {Q : Fs ν → α → World ν → Prop} (hfirst : fs.Plain first.loc)
    (hsecond : ∀ fs₁, first.run fs = some fs₁ → fs₁.Plain second.loc)
    (hrest : ∀ fs₁ fs₂, first.run fs = some fs₁ → second.run fs₁ = some fs₂ →
      Triple (At stream sent fs₂) rest (Q fs₂) (fun _ => False)) :
    Triple (At stream sent fs)
      (onFs (fsCall (syscall first.call)) >>= fun _ =>
        onFs (fsCall (syscall second.call)) >>= fun _ => rest)
      (fun a w => ∃ fs', runEffects fs [first, second] = some fs' ∧ Q fs' a w)
      (fun _ => runEffects fs [first, second] = none) := by
  refine ((effect_at first hfirst).fails ?_).bind fun _ => .of_exists fun fs₁ => ?_
  · intro _ hnone
    simp [runEffects, hnone]
  refine .of_fact fun hrun₁ => ?_
  refine ((effect_at second (hsecond fs₁ hrun₁)).fails ?_).bind fun _ => .of_exists fun fs₂ => ?_
  · intro _ hnone
    simp [runEffects, hrun₁, hnone]
  refine .of_fact fun hrun₂ => ?_
  refine ((hrest fs₁ fs₂ hrun₁ hrun₂).weaken (fun _ hw => hw) ?_).fails fun _ => False.elim
  intro a w hQ
  exact ⟨fs₂, by simp [runEffects, hrun₁, hrun₂], hQ⟩

theorem run_createDir {loc : Loc ν} {fs' : Fs ν} (h : (Effect.createDir loc).run fs = some fs') :
    fs.get loc = none ∧ fs' = fs.set loc (.dir 0o755) := by
  simp only [Effect.run] at h
  split at h
  · rename_i hnone
    exact ⟨hnone, (Option.some.inj h).symm⟩
  · cases h

/-- Permissions are set only where something is. -/
theorem run_setPermissions {loc : Loc ν} {mode : Nat} {fs' : Fs ν}
    (h : (Effect.setPermissions loc mode).run fs = some fs') :
    fs' = fs.chmodAt loc mode ∧ fs.get loc ≠ none := by
  simp only [Effect.run] at h
  split at h
  · cases h
  · rename_i hsome
    exact ⟨(Option.some.inj h).symm, by simp [hsome]⟩

theorem run_write_plain {loc : Loc ν} {data : List UInt8} {fs' : Fs ν} (hplain : fs.Plain loc)
    (h : (Effect.write loc data).run fs = some fs') : fs'.Plain loc := by
  have hcall := (Effect.write loc data).call_plain hplain
  rw [h] at hcall
  exact Fs.writeFile_keeps_plain hplain hcall

/-- A `D` record that is well formed and allowed. -/
theorem receiveDirectory_at (N : OsNames ν) {request : ScpRequest} {line : List UInt8}
    {control : Control} {leaf : List Char} {loc : Loc ν} (hgood : Good root fs sink)
    (hplace : sink.forcedFile = none ∧ request.recursive = true ∧ sink.depth < maxRecursionDepth)
    (hcontrol : parseControl line 68 = some control) (hsize : control.size = 0)
    (hname : portableControlName control.name = some leaf)
    (hloc : loc = sink.current ++ [N.ofText leaf]) :
    Triple (At stream sent fs) (receiveDirectory N root request line sink)
      (fun sink' w => ∃ fs', runEffects fs (newDirectory loc control.mode) = some fs' ∧
        sink' = { sink with current := loc, above := sink.current :: sink.above } ∧
        At stream (sent ++ [[0]]) fs' w)
      (fun _ => runEffects fs (newDirectory loc control.mode) = none) := by
  rcases hgood.dirs sink.current List.mem_cons_self with ⟨hroot, hsolid⟩
  refine (require_pos hplace).bind fun _ => ?_
  refine (orReject_some hcontrol).bind_eq ?_
  refine (require_pos hsize).bind fun _ => ?_
  have hchild := onFs_at stream sent (createChild_calm N hname hroot hsolid)
  rw [← hloc] at hchild
  refine (hchild.fails ?_).bind fun path => .of_fact ?_
  · -- a link at the place: neither the sink nor the effects go on
    rintro w ⟨⟨text, hlink⟩, -⟩
    simp [newDirectory, runEffects, Effect.run, hlink]
  rintro ⟨rfl, hplain⟩
  refine pair_at (.createDir path) (.setPermissions path (control.mode &&& 0o777)) hplain ?_ ?_
  · intro fs₁ hrun
    rcases run_createDir hrun with ⟨hnone, rfl⟩
    exact hplain.set _ hnone fun _ => nofun
  · intro fs₁ fs₂ hrun₁ hrun₂
    rcases run_createDir hrun₁ with ⟨hnone, rfl⟩
    rcases run_setPermissions hrun₂ with ⟨rfl, -⟩
    have hget : (fs.set path (.dir 0o755)).get path = some (.dir 0o755) := by
      rw [Fs.get_set _ _ (Fs.ne_nil_of_get_eq_none hnone), if_pos rfl]
    -- the new directory is solid, so it is its own canonical path
    have hnew : (Fs.chmodAt (fs.set path (.dir 0o755)) path (control.mode &&& 0o777)).Solid path :=
      ((hplain.set (.dir 0o755) hnone fun _ => nofun).solid hget).chmodAt
    rcases hnew.get with ⟨mode, hmode⟩
    have hcanonical := canonicalize_calm (F := fun _ => False)
      (Fs.canonicalize_plain hnew.plain hmode)
    refine (onFs_at _ _ hcanonical).bind_eq ?_
    refine sendAck_at.bind fun _ => ?_
    exact .pure fun w hw => ⟨rfl, hw⟩

/-- A `C` record that is well formed and complete. -/
theorem receiveFile_at (N : OsNames ν) {line data rest : List UInt8} {control : Control}
    {leaf : List Char} {loc : Loc ν} (hgood : Good root fs sink)
    (hcontrol : parseControl line 67 = some control) (hsize : control.size ≤ maxFileSize)
    (hname : portableControlName control.name = some leaf) (hdata : data.length = control.size)
    (hloc : loc = sink.forcedFile.getD (sink.current ++ [N.ofText leaf])) :
    Triple (At (data ++ 0 :: rest) sent fs) (receiveFile N root line sink)
      (fun sink' w => ∃ fs', runEffects fs (putFile loc data control.mode) = some fs' ∧
        sink' = { sink with forcedFile := none } ∧ At rest (sent ++ [[0]] ++ [[0]]) fs' w)
      (fun _ => runEffects fs (putFile loc data control.mode) = none) := by
  rcases hgood.dirs sink.current List.mem_cons_self with ⟨hroot, hsolid⟩
  have hvalid := portableControlName_valid hname
  refine (orReject_some hcontrol).bind_eq ?_
  refine (require_pos hsize).bind fun _ => ?_
  refine (orReject_some hname).bind_eq ?_
  have hpath := onFs_at (data ++ 0 :: rest) sent
    (filePath_calm N hvalid hroot hsolid hgood.forced hloc)
  refine (hpath.fails ?_).bind fun path => .of_fact ?_
  · -- a link at the place: neither the sink nor the effects go on
    rintro w ⟨⟨text, hlink⟩, -⟩
    simp [putFile, runEffects, Effect.run, hlink]
  rintro ⟨rfl, hplain⟩
  refine sendAck_at.bind fun _ => ?_
  -- the content and the byte behind it are taken from the stream
  rw [← hdata]
  refine readExact_at.bind_eq ?_
  refine expectAck_at.bind fun _ => ?_
  refine pair_at (.write path data) (.setPermissions path (control.mode &&& 0o777)) hplain ?_ ?_
  · intro fs₁ hrun
    exact run_write_plain hplain hrun
  · intro fs₁ fs₂ _ _
    refine sendAck_at.bind fun _ => ?_
    exact .pure fun w hw => ⟨rfl, hw⟩

/-- A `C` record that is cut short, or not ended by a zero byte. -/
theorem receiveFile_at_cut (N : OsNames ν) {line : List UInt8} {control : Control}
    (hgood : Good root fs sink) (hcontrol : parseControl line 67 = some control)
    (hcut : (stream.drop control.size).head? ≠ some 0) {Q : Sink ν → World ν → Prop} :
    Triple (At stream sent fs) (receiveFile N root line sink) Q (fun w => w.os.fs = fs) := by
  rcases hgood.dirs sink.current List.mem_cons_self with ⟨hroot, hsolid⟩
  refine (orReject_some hcontrol).bind_eq ?_
  refine (require_triple fun _ => At.tree).bind fun _ => .of_fact fun _ => ?_
  refine (orReject_triple fun _ => At.tree).bind fun leaf => .of_fact fun hname => ?_
  have hpath := onFs_at stream sent
    (filePath_calm N (portableControlName_valid hname) hroot hsolid hgood.forced rfl)
  refine (hpath.fails fun w hw => hw.2).bind fun path => .of_fact fun _ => ?_
  refine sendAck_at.bind fun _ => ?_
  -- the content is cut, or the byte behind it is not zero
  by_cases hlength : stream.length < control.size
  · exact (readExact_at_cut hlength).bind_fails
  · have hread : Triple (At (stream.take control.size ++ stream.drop control.size)
          (sent ++ [[0]]) fs)
        (onWire (ScpWire.readExact [] (stream.take control.size).length))
        (fun bytes w => bytes = stream.take control.size ∧
          At (stream.drop control.size) (sent ++ [[0]]) fs w)
        (fun w => w.os.fs = fs) := readExact_at
    rw [List.take_append_drop, List.length_take, Nat.min_eq_left (by omega)] at hread
    exact hread.bind_eq (expectAck_at_other hcut).bind_fails

/-- A `D` line that is no record. -/
theorem receiveDirectory_at_bad (N : OsNames ν) {request : ScpRequest} {line : List UInt8}
    (h : directoryRecord line = none) {Q : Sink ν → World ν → Prop} :
    Triple (At stream sent fs) (receiveDirectory N root request line sink) Q
      (fun w => w.os.fs = fs) := by
  refine (require_triple fun _ => At.tree).bind fun _ => .of_fact fun _ => ?_
  refine (orReject_triple fun _ => At.tree).bind fun control => .of_fact fun hcontrol => ?_
  refine (require_triple fun _ => At.tree).bind fun _ => .of_fact fun hsize => ?_
  have hname : portableControlName control.name = none := by
    simpa [directoryRecord, hcontrol, hsize] using h
  have hrelative : childRelative N root sink.current control.name = none := by
    simp [childRelative, hname]
  have hreject : Triple (Calm fs) (createChild N root sink.current control.name)
      (fun _ _ => False) (fun os => os.fs = fs) :=
    (orReject_none hrelative fun _ hos => hos.1).bind_fails
  exact Triple.bind_fails fun w hw => onFs_triple hreject w hw.calm

/-- A `C` line that is no record, or not followed by its content. -/
theorem receiveFile_at_bad (N : OsNames ν) {line : List UInt8} (hgood : Good root fs sink)
    (h : fileRecord line stream = none) {Q : Sink ν → World ν → Prop} :
    Triple (At stream sent fs) (receiveFile N root line sink) Q (fun w => w.os.fs = fs) := by
  cases hcontrol : parseControl line 67 with
  | none => exact (orReject_none hcontrol fun _ => At.tree).bind_fails
  | some control =>
      by_cases hcut : (stream.drop control.size).head? = some 0
      · refine (orReject_some hcontrol).bind_eq ?_
        refine (require_triple fun _ => At.tree).bind fun _ => .of_fact fun hsize => ?_
        have hname : portableControlName control.name = none := by
          cases hname : portableControlName control.name with
          | none => rfl
          | some name => simp [fileRecord, hcontrol, hname, hsize, hcut] at h
        exact (orReject_none hname fun _ => At.tree).bind_fails
      · exact receiveFile_at_cut N hgood hcontrol hcut

/-- A line without a record stops the sink, and changes nothing. -/
theorem receiveRecord_none (N : OsNames ν) (request : ScpRequest) {line : List UInt8}
    (hgood : Good root fs sink) (h : recordOf line stream = none)
    {Q : Sink ν → World ν → Prop} :
    Triple (At stream sent fs) (receiveRecord N root request line sink) Q
      (fun w => w.os.fs = fs) := by
  unfold receiveRecord
  unfold recordOf at h
  split_ifs at h ⊢ with htimes hparse hdirectory hclose hfile
  · exact (require_neg hparse fun _ => At.tree).bind_fails
  · exact receiveDirectory_at_bad N (Option.map_eq_none_iff.mp h)
  · exact receiveFile_at_bad N hgood h
  · exact reject_triple fun _ => At.tree

/-- A directory record is read from its line alone. -/
theorem directoryRecord_some {line : List UInt8} {record : Record}
    (h : directoryRecord line = some record) :
    ∃ control leaf, parseControl line 68 = some control ∧ control.size = 0 ∧
      portableControlName control.name = some leaf ∧ record = .directory control.mode leaf := by
  simp only [directoryRecord] at h
  split at h
  · cases h
  · rename_i control hcontrol
    split_ifs at h with hsize
    rcases Option.map_eq_some_iff.mp h with ⟨leaf, hname, rfl⟩
    exact ⟨control, leaf, hcontrol, hsize, hname, rfl⟩

/-- A file record is its line, as many bytes as the line says, and a zero byte. -/
theorem fileRecord_some {line rest : List UInt8} {record : Record}
    (h : fileRecord line stream = some (record, rest)) :
    ∃ control leaf data, parseControl line 67 = some control ∧ control.size ≤ maxFileSize ∧
      portableControlName control.name = some leaf ∧ data.length = control.size ∧
      stream = data ++ 0 :: rest ∧ record = .file control.mode leaf data := by
  simp only [fileRecord] at h
  split at h
  · cases h
  · rename_i control hcontrol
    split at h
    · cases h
    · rename_i leaf hname
      split_ifs at h with hwhole
      cases h
      rcases List.head?_eq_some_iff.mp hwhole.2 with ⟨rest, hrest⟩
      -- the byte behind the content is there
      have hlength : control.size < stream.length := by
        by_contra hshort
        rw [List.drop_eq_nil_of_le (by omega)] at hrest
        cases hrest
      refine ⟨control, leaf, stream.take control.size, hcontrol, hwhole.1, hname, ?_, ?_, rfl⟩
      · rw [List.length_take]
        omega
      · have htail : stream.drop (control.size + 1) = rest := by
          rw [← List.drop_drop, hrest]
          rfl
        rw [htail, ← hrest, List.take_append_drop]

/-- A record does what it asks for at its place, and is acknowledged; it stops the sink where
it is not allowed or a call fails. -/
theorem receiveRecord_some (N : OsNames ν) (request : ScpRequest) {line rest : List UInt8}
    {record : Record} (hgood : Good root fs sink)
    (h : recordOf line stream = some (record, rest)) :
    Triple (At stream sent fs) (receiveRecord N root request line sink)
      (fun sink' w => ∃ effects fs',
        record.place N request.recursive sink = some (sink', effects) ∧
        runEffects fs effects = some fs' ∧
        At rest (sent ++ List.replicate record.acks [0]) fs' w)
      (fun w => match record.place N request.recursive sink with
        | none => w.os.fs = fs
        | some (_, effects) => runEffects fs effects = none) := by
  unfold receiveRecord
  unfold recordOf at h
  split_ifs at h ⊢ with htimes hparse hdirectory hclose hfile
  · -- T
    cases h
    refine (require_pos hparse).bind fun _ => sendAck_at.bind fun _ => ?_
    exact .pure fun w hw => ⟨[], fs, rfl, rfl, hw⟩
  · -- D
    rcases Option.map_eq_some_iff.mp h with ⟨_, hrecord, heq⟩
    cases heq
    rcases directoryRecord_some hrecord with ⟨control, leaf, hcontrol, hsize, hname, rfl⟩
    by_cases hplace :
        sink.forcedFile = none ∧ request.recursive = true ∧ sink.depth < maxRecursionDepth
    · simp only [Record.place, if_pos hplace]
      refine (receiveDirectory_at N hgood hplace hcontrol hsize hname rfl).weaken
        (fun _ hw => hw) ?_
      rintro sink' w ⟨fs', hrun, rfl, hw⟩
      exact ⟨_, fs', rfl, hrun, hw⟩
    · simp only [Record.place, if_neg hplace]
      exact (require_neg hplace fun _ => At.tree).bind_fails
  · -- E
    cases h
    unfold receiveEnd
    split
    · rename_i habove
      refine reject_triple fun w hw => ?_
      simp only [Record.place, habove]
      exact hw.tree
    · rename_i directory above habove
      refine sendAck_at.bind fun _ => .pure fun w hw => ?_
      exact ⟨[], fs, by simp [Record.place, habove], rfl, hw⟩
  · -- C
    rcases fileRecord_some h with ⟨control, leaf, data, hcontrol, hsize, hname, hdata, rfl, rfl⟩
    refine (receiveFile_at N hgood hcontrol hsize hname hdata rfl).weaken (fun _ hw => hw) ?_
    rintro sink' w ⟨fs', hrun, rfl, hw⟩
    rw [List.append_assoc] at hw
    exact ⟨_, fs', rfl, hrun, hw⟩

/-! ## One turn -/

omit [DecidableEq ν] in
/-- Reading a line takes the first line off the stream, or notes whether the stream was at
its end. -/
theorem readLine_at {E : World ν → Prop} :
    Triple (At stream sent fs) (tryWire ScpWire.readLine)
      (fun result w => match takeLine stream with
        | some (line, rest) => result = .ok line ∧ At rest sent fs w
        | none => result = .error {} ∧ w.os.fs = fs ∧ w.wire.sent = sent ∧
            (w.wire.endOfInput = true ∧ w.wire.incompleteControl = false ↔ stream = []))
      E := by
  intro w hw
  simp only [tryWire, ScpWire.readLine]
  rcases takeLine_cases stream with ⟨line, rest, hstream, hline, hroom, htake⟩ |
    ⟨line, rest, hstream, hline, hroom, htake⟩ | ⟨hline, hroom, htake⟩
  · -- a whole line
    rw [hstream] at hw
    rcases ScpWire.readLineFrom_line [] hw.remaining hline hroom with ⟨wire, hread, htook, -⟩
    have hw' : At ((line ++ [10]) ++ rest) sent fs w := by simpa using hw
    have hrest := hw'.took htook
    simp only [htake, hread, List.nil_append]
    exact ⟨trivial, hrest.remaining, hrest.ends, hrest.endOfInput, hrest.sends, hrest.sent,
      hrest.calm⟩
  · -- a line that is too long: the stream has not ended
    rw [hstream] at hw
    rcases ScpWire.readLineFrom_full [] hw.remaining hline hroom with ⟨wire, hread, htook⟩
    have hrest := hw.took htook
    have hne : stream ≠ [] := by
      rintro rfl
      have hnil : line = [] := (List.append_eq_nil_iff.mp hstream.symm).1
      simp [hnil, maxControlLine] at hroom
    simp only [htake, hread]
    have hopen : wire.endOfInput = false := hrest.endOfInput
    refine ⟨trivial, hrest.tree, hrest.sent, ?_⟩
    simp [hne, hopen]
  · -- the stream ends: cleanly only if there is nothing at all
    rcases ScpWire.readLineFrom_cut [] hw.remaining hw.ends hline hroom with
      ⟨wire, hread, hend, hincomplete, hsent⟩
    simp only [htake, hread]
    refine ⟨trivial, hw.tree, hsent.trans hw.sent, ?_⟩
    simp [hend, hincomplete]

/-- Nothing more is to be done: the stream is used up, no directory is open, and the forced
file is written. -/
def Finished (stream : List UInt8) (sink : Sink ν) : Prop :=
  stream = [] ∧ sink.above = [] ∧ sink.forcedFile = none

/-- Without a record the sink ends, well if it is finished. -/
theorem sinkTurn_none (N : OsNames ν) (request : ScpRequest) (hgood : Good root fs sink)
    (h : takeRecord stream = none) :
    Triple (At stream sent fs) (sinkTurn N root request sink)
      (fun next w => next = none ∧ Finished stream sink ∧ w.os.fs = fs ∧ w.wire.sent = sent)
      (fun w => ¬Finished stream sink ∧ w.os.fs = fs) := by
  refine readLine_at.bind fun result => ?_
  cases htake : takeLine stream with
  | some taken =>
      -- a line that is no record
      have hne : ¬Finished stream sink := by
        rintro ⟨rfl, -⟩
        cases htake
      rcases taken with ⟨line, rest⟩
      simp only [takeRecord, htake] at h
      refine .of_fact fun heq => heq ▸ ?_
      refine Triple.map (Triple.fails (E := fun w => w.os.fs = fs) ?_ fun w hw => ⟨hne, hw⟩)
      exact receiveRecord_none N request hgood h
  | none =>
      -- no line: the sink is done, or the stream was cut
      refine .of_fact fun heq => heq ▸ ?_
      refine Triple.get.bind fun w => ?_
      refine Triple.weaken (P := fun s => (sinkDone sink w.wire ↔ Finished stream sink) ∧
        s.os.fs = fs ∧ s.wire.sent = sent) ?_ ?_ fun _ _ h => h
      · refine .of_fact fun hdone => ?_
        by_cases hfinished : Finished stream sink
        · refine (require_pos (hdone.mpr hfinished)).bind fun _ => ?_
          exact .pure fun s hs => ⟨rfl, hfinished, hs⟩
        · refine (require_neg (fun h => hfinished (hdone.mp h)) ?_).bind_fails
          exact fun s hs => ⟨hfinished, hs.1⟩
      · rintro s ⟨rfl, hfs, hsent, hend⟩
        refine ⟨?_, hfs, hsent⟩
        simp only [sinkDone, Finished, ← hend]
        tauto

/-- With a record the sink goes on from the place after it. -/
theorem sinkTurn_some (N : OsNames ν) (request : ScpRequest) {record : Record}
    {rest : List UInt8} (hgood : Good root fs sink)
    (h : takeRecord stream = some (record, rest)) :
    Triple (At stream sent fs) (sinkTurn N root request sink)
      (fun next w => ∃ sink' effects fs', next = some sink' ∧
        record.place N request.recursive sink = some (sink', effects) ∧
        runEffects fs effects = some fs' ∧
        At rest (sent ++ List.replicate record.acks [0]) fs' w)
      (fun w => match record.place N request.recursive sink with
        | none => w.os.fs = fs
        | some (_, effects) => runEffects fs effects = none) := by
  refine readLine_at.bind fun result => ?_
  cases htake : takeLine stream with
  | none => simp [takeRecord, htake] at h
  | some taken =>
      rcases taken with ⟨line, rest'⟩
      simp only [takeRecord, htake] at h
      refine .of_fact fun heq => heq ▸ ?_
      refine Triple.map ((receiveRecord_some N request hgood h).weaken (fun _ hw => hw) ?_)
      rintro sink' w ⟨effects, fs', hplace, hrun, hw⟩
      exact ⟨sink', effects, fs', rfl, hplace, hrun, hw⟩

end OneRecord

/-! ## The whole stream -/

/-- Effects leave solid directories solid. -/
theorem run_solid {fs fs' : Fs ν} {effect : Effect ν} (h : effect.run fs = some fs')
    {dir : Loc ν} (hdir : fs.Solid dir) : fs'.Solid dir := by
  cases effect with
  | createDir loc =>
      rcases run_createDir h with ⟨hnone, rfl⟩
      exact hdir.set (Fs.ne_nil_of_get_eq_none hnone) hnone
  | setPermissions loc mode =>
      rcases run_setPermissions h with ⟨rfl, -⟩
      exact hdir.chmodAt
  | write loc data =>
      simp only [Effect.run] at h
      split at h <;> cases h
      · rename_i hnone
        exact hdir.newFile (Fs.ne_nil_of_get_eq_none hnone) hnone
      · exact hdir
      · exact hdir

/-- A list of effects leaves solid directories solid. -/
theorem runEffects_solid {fs fs' : Fs ν} {effects : List (Effect ν)}
    (h : runEffects fs effects = some fs') {dir : Loc ν} (hdir : fs.Solid dir) :
    fs'.Solid dir := by
  induction effects generalizing fs with
  | nil =>
      cases h
      exact hdir
  | cons effect effects ih =>
      simp only [runEffects, List.foldlM_cons, Option.bind_eq_bind, Option.bind_eq_some_iff] at h
      rcases h with ⟨fs₁, hrun, hrest⟩
      exact ih hrest (run_solid hrun hdir)

/-- A new directory is one. -/
theorem newDirectory_solid {fs fs' : Fs ν} {dir : Loc ν} {n : ν} {mode : Nat}
    (h : runEffects fs (newDirectory (dir ++ [n]) mode) = some fs') (hdir : fs.Solid dir) :
    fs'.Solid (dir ++ [n]) := by
  simp only [newDirectory, runEffects, List.foldlM_cons, List.foldlM_nil, Option.bind_eq_bind,
    Option.bind_eq_some_iff] at h
  rcases h with ⟨fs₁, hrun₁, fs₂, hrun₂, heq⟩
  cases heq
  rcases run_createDir hrun₁ with ⟨hnone, rfl⟩
  refine run_solid hrun₂ (Fs.solid_concat.mpr ⟨run_solid hrun₁ hdir, 0o755, ?_⟩)
  rw [Fs.get_set _ _ (by simp), if_pos rfl]

/-- A placed record leaves a good place behind. -/
theorem Good.place {N : OsNames ν} {recursive : Bool} {root : Loc ν} {fs fs' : Fs ν}
    {sink sink' : Sink ν} {record : Record} {effects : List (Effect ν)}
    (hgood : Good root fs sink) (hplace : record.place N recursive sink = some (sink', effects))
    (hrun : runEffects fs effects = some fs') : Good root fs' sink' := by
  have hdirs : ∀ dir ∈ sink.current :: sink.above, root <+: dir ∧ fs'.Solid dir :=
    fun dir hdir => ⟨(hgood.dirs dir hdir).1, runEffects_solid hrun (hgood.dirs dir hdir).2⟩
  cases record with
  | times =>
      cases hplace
      cases hrun
      exact hgood
  | directory mode name =>
      -- the new directory is solid, and so are those above it
      simp only [Record.place] at hplace
      split_ifs at hplace with hallowed
      cases hplace
      rcases hgood.dirs sink.current List.mem_cons_self with ⟨hroot, hsolid⟩
      refine ⟨?_, by simp [hallowed.1]⟩
      intro dir hdir
      rcases List.mem_cons.mp hdir with rfl | hdir
      · exact ⟨hroot.trans (List.prefix_append _ _), newDirectory_solid hrun hsolid⟩
      · exact hdirs dir hdir
  | close =>
      -- the parent was above
      simp only [Record.place] at hplace
      split at hplace
      · cases hplace
      · rename_i parent above habove
        cases hplace
        cases hrun
        refine ⟨fun dir hdir => hgood.dirs dir ?_, hgood.forced⟩
        rw [habove]
        exact List.mem_cons_of_mem _ hdir
  | file mode name data =>
      -- the forced file is served
      cases hplace
      exact ⟨hdirs, by simp⟩

theorem runEffects_append (fs : Fs ν) (xs ys : List (Effect ν)) :
    runEffects fs (xs ++ ys) = (runEffects fs xs).bind fun fs' => runEffects fs' ys := by
  simp [runEffects, List.foldlM_append]

omit [DecidableEq ν] in
theorem plan_none (N : OsNames ν) (recursive : Bool) (sink : Sink ν) {stream : List UInt8}
    (h : takeRecord stream = none) : plan N recursive sink stream = ⟨[], sink, [], stream⟩ := by
  simp only [plan, records_none h, placeAll]

omit [DecidableEq ν] in
/-- A record at the head is placed, and the plan goes on behind it, unless it is refused. -/
theorem plan_some (N : OsNames ν) (recursive : Bool) (sink : Sink ν) {stream rest : List UInt8}
    {record : Record} (h : takeRecord stream = some (record, rest)) :
    plan N recursive sink stream = match record.place N recursive sink with
      | none => ⟨[], sink, record :: (records rest).1, (records rest).2⟩
      | some (sink', effects) =>
          { plan N recursive sink' rest with
            effects := effects ++ (plan N recursive sink' rest).effects } := by
  simp only [plan, records_some h, placeAll]

omit [DecidableEq ν] in
/-- The acknowledgements for a stream of records. -/
def acksFor (stream : List UInt8) : Nat := ((records stream).1.map Record.acks).sum

/-- The end of a run that went well: the plan is complete, and its calls were made. -/
def EndsAsPlanned (fs : Fs ν) (plan : Plan ν) (sent : List (List UInt8)) (w : World ν) : Prop :=
  plan.Complete ∧ runEffects fs plan.effects = some w.os.fs ∧ w.wire.sent = sent

/-- The end of a run that failed: unless a call of the plan failed, they were made, and the
plan is not complete. -/
def StopsAsPlanned (fs : Fs ν) (plan : Plan ν) (w : World ν) : Prop :=
  ∀ fs', runEffects fs plan.effects = some fs' → ¬plan.Complete ∧ w.os.fs = fs'

/-- The loop follows the plan of what is left of the stream. -/
theorem sinkLoop_plan (N : OsNames ν) {root : Loc ν} (request : ScpRequest) {turns : Nat}
    {stream : List UInt8} {sent : List (List UInt8)} {fs : Fs ν} {sink : Sink ν}
    (hturns : stream.length < turns) (hgood : Good root fs sink) :
    Triple (At stream sent fs) (sinkLoop N root request turns sink)
      (fun _ => EndsAsPlanned fs (plan N request.recursive sink stream)
        (sent ++ List.replicate (acksFor stream) [0]))
      (StopsAsPlanned fs (plan N request.recursive sink stream)) := by
  induction turns generalizing stream sent fs sink with
  | zero => simp at hturns
  | succ turns ih =>
      cases htake : takeRecord stream with
      | none =>
          rw [plan_none N _ sink htake]
          have hcomplete : (⟨[], sink, [], stream⟩ : Plan ν).Complete ↔ Finished stream sink := by
            simp [Plan.Complete, Finished]
          have hacks : acksFor stream = 0 := by simp [acksFor, records_none htake]
          refine ((sinkTurn_none N request hgood htake).fails ?_).bind fun next => ?_
          · rintro w ⟨hnot, hfs⟩ fs' hrun
            cases hrun
            exact ⟨fun h => hnot (hcomplete.mp h), hfs⟩
          · refine .of_fact fun heq => heq ▸ .pure ?_
            rintro w ⟨hfinished, rfl, hsent⟩
            refine ⟨hcomplete.mpr hfinished, rfl, ?_⟩
            rw [hsent, hacks, List.replicate_zero, List.append_nil]
      | some taken =>
          rcases taken with ⟨record, rest⟩
          rw [plan_some N _ sink htake]
          have hacks : acksFor stream = record.acks + acksFor rest := by
            simp [acksFor, records_some htake]
          refine ((sinkTurn_some N request hgood htake).fails ?_).bind fun next => ?_
          · intro w hw fs' hrun
            cases hplace : record.place N request.recursive sink with
            | none =>
                simp only [hplace] at hw hrun ⊢
                cases hrun
                refine ⟨?_, hw⟩
                rintro ⟨-, hrefused, -⟩
                cases hrefused
            | some placed =>
                -- a call of this record failed
                simp only [hplace] at hw hrun
                rw [runEffects_append, hw] at hrun
                cases hrun
          · refine .of_exists fun sink' => .of_exists fun effects => .of_exists fun fs₁ => ?_
            refine .of_fact fun heq => heq ▸ .of_fact fun hplace => .of_fact fun hrun => ?_
            have hlength := takeRecord_length htake
            have hloop := @ih rest (sent ++ List.replicate record.acks [0]) fs₁ sink' (by omega)
              (hgood.place hplace hrun)
            simp only [hplace]
            refine (hloop.weaken (fun _ hw => hw) ?_).fails ?_
            · rintro _ w ⟨hcomplete, hfs, hsent⟩
              refine ⟨hcomplete, ?_, ?_⟩
              · rw [runEffects_append, hrun, Option.bind_some, hfs]
              · rw [hsent, hacks, List.append_assoc, List.replicate_append_replicate]
            · intro w hw fs' hfs'
              rw [runEffects_append, hrun, Option.bind_some] at hfs'
              exact hw fs' hfs'

omit [DecidableEq ν] in
/-- Where a sink starts. -/
def SinkTarget.sink (target : SinkTarget ν) : Sink ν where
  current := target.directory
  forcedFile := target.forcedFile

/-- From a fresh start, with the target prepared. -/
theorem resolveSinkTarget_at (N : OsNames ν) {root : Loc ν} (request : ScpRequest) {fs : Fs ν}
    {os : Os ν} {target : SinkTarget ν} {events : List WireEvent} {E : World ν → Prop}
    (htarget : resolveSinkTarget N root request { fs } = .ok target os)
    (hends : endsInput events = true) :
    Triple (fun w => w = ⟨{ events }, { fs }⟩) (onFs (resolveSinkTarget N root request))
      (fun t w => t = target ∧ At (streamBytes events) [] os.fs w) E := by
  have hheld := resolveSinkTarget_held N request { fs }
    (⟨rfl, rfl, inside_nil⟩ : Held root (fun _ => none) fs { fs })
  rw [htarget] at hheld
  rcases hheld with ⟨_, -, rfl, hfault, -⟩
  rintro w rfl
  simp only [onFs, htarget]
  exact ⟨trivial, rfl, hends, rfl, fun _ => rfl, rfl, rfl, fun n => by rw [hfault]⟩

/-- The sink from a fresh start, with its target prepared. -/
theorem receiveSink_run (N : OsNames ν) {root : Loc ν} (request : ScpRequest) {fs : Fs ν}
    {os : Os ν} {target : SinkTarget ν} {events : List WireEvent}
    (hroot : fs.Solid root) (htarget : resolveSinkTarget N root request { fs } = .ok target os)
    (hends : endsInput events = true) :
    Triple (fun w => w = ⟨{ events }, { fs }⟩) (receiveSink N root request)
      (fun _ => EndsAsPlanned os.fs (plan N request.recursive target.sink (streamBytes events))
        (List.replicate (acksFor (streamBytes events) + 1) [0]))
      (StopsAsPlanned os.fs (plan N request.recursive target.sink (streamBytes events))) := by
  have hprepared := resolveSinkTarget_held N request { fs }
    (⟨rfl, rfl, inside_nil⟩ : Held root (fun _ => none) fs { fs })
  rw [htarget] at hprepared
  rcases hprepared with ⟨_, hprepared, rfl, -, -⟩
  have hgood : Good root os.fs target.sink := by
    refine ⟨?_, fun loc hloc => (hprepared.forced loc hloc).2⟩
    intro dir hdir
    obtain rfl : dir = target.directory := by simpa [SinkTarget.sink] using hdir
    exact hprepared.directory hroot
  refine (resolveSinkTarget_at N request htarget hends).bind_eq ?_
  refine sendAck_at.bind fun _ => Triple.get.bind fun w => ?_
  rintro _ ⟨rfl, hw⟩
  refine sinkLoop_plan N request ?_ hgood w hw
  rw [hw.remaining]
  exact Nat.lt_succ_self _

/-- On a calm system, whatever the stream and however it is cut into messages: once the
target is prepared, the calls made are those of the plan, and the sink ends well exactly if
the plan is complete. -/
theorem receiveSink_plan (N : OsNames ν) {root : Loc ν} (request : ScpRequest) {fs fs' : Fs ν}
    {os : Os ν} {target : SinkTarget ν} (stream : List UInt8) (hroot : fs.Solid root)
    (htarget : resolveSinkTarget N root request { fs } = .ok target os)
    (hcalls : runEffects os.fs (plan N request.recursive target.sink stream).effects = some fs') :
    ∀ events, streamBytes events = stream → endsInput events = true →
      ∃ w, w.os.fs = fs' ∧ receiveSink N root request ⟨{ events }, { fs }⟩ =
        if (plan N request.recursive target.sink stream).Complete then .ok () w
        else .error {} w := by
  rintro events rfl hends
  have hrun := receiveSink_run N request hroot htarget hends _ rfl
  cases hresult : receiveSink N root request ⟨{ events }, { fs }⟩ with
  | ok value w =>
      rw [hresult] at hrun
      rcases hrun with ⟨hcomplete, heffects, -⟩
      rw [hcalls] at heffects
      exact ⟨w, (Option.some.inj heffects).symm, (if_pos hcomplete).symm⟩
  | error error w =>
      rw [hresult] at hrun
      rcases hrun fs' hcalls with ⟨hnot, hfs⟩
      exact ⟨w, hfs, (if_neg hnot).symm⟩

/-- A root with nothing in it. -/
def emptyRoot : Fs (List Char) := ⟨[([['r']], .dir 0o755)], fun _ => { mode := 0 }, 0⟩

/-- One record: the file `f` with one byte. -/
def oneFile : List UInt8 := Text.encodeUtf8 "C0644 1 f\nx\x00".toList

theorem takeRecord_oneFile : takeRecord oneFile = some (.file 0o644 ['f'] [120], []) := by
  decide +kernel

/-- The file arrives, also when its record is cut in the middle. -/
theorem receiveSink_plan_oneFile :
    ∃ w, w.os.fs.get [['r'], ['f']] = some (.file 0) ∧
      receiveSink textNames [['r']] { target := ['.'] }
        ⟨{ events := [.data (oneFile.take 3), .other, .data (oneFile.drop 3), .eof] },
          { fs := emptyRoot }⟩ = .ok () w := by
  have hroot : emptyRoot.Solid [['r']] := Fs.solid_concat.mpr ⟨Fs.solid_nil, 0o755, rfl⟩
  have htarget : ∃ os, os.fs = emptyRoot ∧
      resolveSinkTarget textNames [['r']] { target := ['.'] } { fs := emptyRoot } =
        .ok ⟨[['r']], none⟩ os := ⟨_, rfl, rfl⟩
  rcases htarget with ⟨os, hos, htarget⟩
  -- the plan of the one record: a file, its permissions, and nothing left
  have hplan : plan textNames false (SinkTarget.sink ⟨[['r']], none⟩) oneFile =
      ⟨putFile [['r'], ['f']] [120] 0o644, { current := [['r']] }, [], []⟩ := by
    rw [plan_some _ _ _ takeRecord_oneFile]
    simp only [Record.place, plan_none _ _ _ (show takeRecord [] = none from rfl)]
    rfl
  have hcalls : ∃ fs', fs'.get [['r'], ['f']] = some (.file 0) ∧
      runEffects os.fs (plan textNames false (SinkTarget.sink ⟨[['r']], none⟩) oneFile).effects =
        some fs' := by
    rw [hplan, hos]
    exact ⟨_, rfl, rfl⟩
  rcases hcalls with ⟨fs', hfile, hcalls⟩
  rcases receiveSink_plan textNames { target := ['.'] } oneFile hroot htarget hcalls
    [.data (oneFile.take 3), .other, .data (oneFile.drop 3), .eof] (by decide +kernel) rfl with
    ⟨w, hfs, hrun⟩
  rw [if_pos (by rw [hplan]; decide)] at hrun
  exact ⟨w, hfs ▸ hfile, hrun⟩

/-- Not every effect is a record's, and not every well-formed record has its effect: a missing
target that is to be a directory is made before the first record, and after an `E` that
closes nothing no record counts. -/
theorem effects_beside_records :
    (emptyRoot.get [['r'], ['n']] = none ∧
      (finalWorld (receiveSink textNames [['r']] { targetIsDirectory := true, target := ['n'] }
        ⟨{ events := [.eof] }, { fs := emptyRoot }⟩)).os.fs.get [['r'], ['n']] =
          some (.dir 0o755)) ∧
    takeRecord ([69, 10] ++ oneFile) = some (.close, oneFile) ∧
    takeRecord oneFile = some (.file 0o644 ['f'] [120], []) ∧
    (finalWorld (receiveSink textNames [['r']] { target := ['.'] }
      ⟨{ events := [.data ([69, 10] ++ oneFile), .eof] }, { fs := emptyRoot }⟩)).os.fs.get
        [['r'], ['f']] = none := by
  decide +kernel

end Rssh.Scp
