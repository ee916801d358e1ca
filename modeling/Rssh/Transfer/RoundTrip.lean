import Rssh.Transfer.Forest

/-!
# From a source to a sink

What a source sends that completes is the encoding of the tree at its target, and a sink in
an empty directory rebuilds that tree from it. No call is refused for want of a permission,
as none is where the owner may do everything with the directories.

* `sendSource_sends`: the bytes sent by a source that completes, and the acknowledgements it
  waited for.
* `round_trip_iff`: the sink rebuilds the tree if and only if fewer than `maxRecursionDepth`
  directories are nested and every control line fits. The source allows one level more:
  `deepChain_is_refused`.
-/

namespace Rssh.Scp

open Posix

variable {ν : Type} [DecidableEq ν]

/-! ## What a source has done -/

/-- The tree, what was sent, and how many of the bytes in `start` were taken as
acknowledgements. -/
structure Sending (fs : Fs ν) (start sent : List UInt8) (acks : Nat) (w : World ν) : Prop where
  tree : w.os.fs = fs
  sent : w.wire.sent.flatten = sent
  remaining : start = List.replicate acks 0 ++ w.wire.remaining

section Rules

variable {fs : Fs ν} {start sent : List UInt8} {acks : Nat}

omit [DecidableEq ν]

/-- Bytes are sent behind those before. -/
theorem sendBytes_sends (bytes : List UInt8) :
    Triple (Sending fs start sent acks) (sendBytes bytes)
      (fun _ => Sending fs start (sent ++ bytes) acks) (fun _ => True) := by
  intro w hw
  cases hfails : w.wire.sendFails w.wire.sent.length with
  | true => simp [sendBytes, onWire, ScpWire.send, hfails]
  | false =>
      simp only [sendBytes, onWire, ScpWire.send, hfails, Bool.false_eq_true, if_false]
      exact ⟨hw.tree, by simp [hw.sent], hw.remaining⟩

/-- A zero byte is taken as an acknowledgement, or the source fails. -/
theorem expectAck_sends :
    Triple (Sending fs start sent acks) expectAck
      (fun _ => Sending fs start sent (acks + 1)) (fun _ => True) := by
  have hbyte : Triple (Sending fs start sent acks) (onWire ScpWire.readByte)
      (fun byte w => byte = 0 → Sending fs start sent (acks + 1) w) (fun _ => True) := by
    intro w hw
    simp only [onWire]
    cases hread : w.wire.readByte with
    | mk result wire =>
        cases result with
        | error error => trivial
        | ok byte =>
            rintro rfl
            -- the byte was the first of what was to be read
            rcases ScpWire.readByte_ok hread with ⟨hremaining, hsent⟩
            refine ⟨hw.tree, by simpa [hsent] using hw.sent, ?_⟩
            rw [hw.remaining, hremaining, List.replicate_succ']
            simp
  refine hbyte.bind fun byte => ?_
  refine (require_triple (fun _ _ => trivial)).weaken (fun _ hw => hw) ?_
  intro _ w hw
  exact hw.2 hw.1

/-- The file system sends nothing. -/
theorem onFs_sends {α : Type} {call : Sys ν α} {Q : α → Prop}
    (h : Triple (fun os => os.fs = fs) call (fun a os => Q a ∧ os.fs = fs) (fun _ => True)) :
    Triple (Sending fs start sent acks) (onFs (fsCall call))
      (fun a w => Q a ∧ Sending fs start sent acks w) (fun _ => True) := by
  intro w hw
  have hcall := fsCall_triple h w.os hw.tree
  simp only [onFs]
  cases hrun : fsCall call w.os with
  | error error os => trivial
  | ok value os =>
      rw [hrun] at hcall
      exact ⟨hcall.1, hcall.2, hw.sent, hw.remaining⟩

/-- A call that leaves the tree alone answers what it answers on the tree, or fails. -/
theorem syscall_sees {α : Type} {effect : Fs ν → CallEffect ν α} {a : α}
    (h : (effect fs).1 = .ok (a, fs)) :
    Triple (fun os => os.fs = fs) (syscall effect) (fun b os => b = a ∧ os.fs = fs)
      (fun _ => True) := by
  rintro os rfl
  simp only [syscall, h]
  cases os.fault os.calls with
  | some fault => trivial
  | none => exact ⟨rfl, rfl⟩

end Rules

/-! ## Sending a forest -/

namespace Forest

omit [DecidableEq ν] in
/-- The acknowledgements for the entries of a directory. -/
def acks (N : OsNames ν) (preserveTimes : Bool) (forest : Forest ν) : Nat :=
  ((forest.toRecords N preserveTimes).map Record.acks).sum

omit [DecidableEq ν] in
def timesAcks (preserveTimes : Bool) : Nat := if preserveTimes then 1 else 0

omit [DecidableEq ν] in
theorem sum_timesRecords (preserveTimes : Bool) :
    ((timesRecords preserveTimes).map Record.acks).sum = timesAcks preserveTimes := by
  cases preserveTimes <;> rfl

omit [DecidableEq ν] in
/-- A file is acknowledged twice, behind its line and behind its content. -/
theorem acks_file (N : OsNames ν) (preserveTimes : Bool) (name : ν) (mode : Nat)
    (data : List UInt8) (rest : Forest ν) :
    (file name mode data rest).acks N preserveTimes =
      timesAcks preserveTimes + 2 + rest.acks N preserveTimes := by
  simp [acks, toRecords, sum_timesRecords, Record.acks]
  omega

omit [DecidableEq ν] in
/-- A directory is acknowledged at its start and at its end. -/
theorem acks_dir (N : OsNames ν) (preserveTimes : Bool) (name : ν) (mode : Nat)
    (children rest : Forest ν) :
    (dir name mode children rest).acks N preserveTimes =
      timesAcks preserveTimes + 1 + children.acks N preserveTimes + 1 +
        rest.acks N preserveTimes := by
  simp [acks, toRecords, sum_timesRecords, Record.acks]
  omega

end Forest

section Sends

open Forest

variable {N : OsNames ν} {times : Loc ν → UInt64 × UInt64} {root : Loc ν} {request : ScpRequest}
  {fs : Fs ν} {start sent : List UInt8} {acks : Nat} {path : Loc ν} {name : ν}

omit [DecidableEq ν] in
/-- The times are sent in front of the entry, or not at all. -/
theorem sendTimes_sends (loc : Loc ν) :
    Triple (Sending fs start sent acks) (sendTimes request times loc)
      (fun _ => Sending fs start (sent ++ timesBytes request.preserveTimes times loc)
        (acks + timesAcks request.preserveTimes))
      (fun _ => True) := by
  cases hpreserve : request.preserveTimes with
  | true =>
      simp only [sendTimes, hpreserve, if_true, timesBytes, timesAcks]
      exact (sendBytes_sends _).bind fun _ => expectAck_sends
  | false =>
      simp only [sendTimes, hpreserve, timesBytes, timesAcks]
      exact .pure fun w hw => by simpa using hw

/-- What an entry that is no link shows of itself. -/
theorem attributes_plain {loc : Loc ν} {obj : Obj ν} (hplain : fs.Plain loc)
    (hget : fs.get loc = some obj) :
    (fs.attributes false loc.path).1 = .ok (fs.metadata obj, fs) := by
  simp only [Fs.attributes, Fs.lookup_plain hplain, hget]

/-- A file that is sent. -/
theorem sendEntry_file {levels ino mode : Nat} {data : List UInt8} (hsolid : fs.Solid path)
    (hget : fs.get (path ++ [name]) = some (.file ino)) (hinode : fs.inode ino = ⟨data, mode⟩) :
    Triple (Sending fs start sent acks)
      (sendEntry N times root request levels (path ++ [name]) (nameText N name))
      (fun _ w => data.length ≤ maxFileSize ∧
        Sending fs start
          (sent ++ timesBytes request.preserveTimes times (path ++ [name]) ++
            fileLine (mode &&& 0o777) data.length (nameText N name) ++ data ++ [0])
          (acks + timesAcks request.preserveTimes + 1 + 1) w)
      (fun _ => True) := by
  have hplain : fs.Plain (path ++ [name]) := hsolid.concat_plain (by simp [hget])
  -- what the source sees of the file: its mode, its size, its content
  have hmetadata : (fs.attributes false (Loc.path (path ++ [name]))).1 =
      .ok (⟨.file, mode, data.length⟩, fs) := by
    rw [attributes_plain hplain hget]
    simp [Fs.metadata, hinode]
  have hread : (fs.readFile (Loc.path (path ++ [name]))).1 = .ok (data, fs) := by
    rcases Fs.resolve_plain hplain true with ⟨obj, -, hres⟩ | ⟨_, _, -, hnone, -⟩
    · simp [Fs.readFile, hres, hget, hinode]
    · rw [hget] at hnone
      cases hnone
  cases levels with
  -- too deep
  | zero => exact reject_triple fun _ _ => trivial
  | succ levels =>
      refine (require_triple fun _ _ => trivial).bind fun _ => .of_fact fun _ => ?_
      refine (onFs_sends (syscall_sees hmetadata)).bind_eq ?_
      refine (require_triple fun _ _ => trivial).bind fun _ => .of_fact fun _ => ?_
      refine (sendTimes_sends _).bind fun _ => ?_
      refine (require_triple fun _ _ => trivial).bind fun _ => .of_fact fun hsize => ?_
      refine (sendBytes_sends _).bind fun _ => expectAck_sends.bind fun _ => ?_
      refine (onFs_sends (syscall_sees hread)).bind_eq ?_
      refine (sendBytes_sends _).bind fun _ => ?_
      refine (sendBytes_sends [0]).bind fun _ => ?_
      exact expectAck_sends.weaken (fun _ hw => hw) fun _ w hw => ⟨hsize, hw⟩

/-- A directory that is sent, if its entries are. -/
theorem sendEntry_dir {levels mode : Nat} {children : Forest ν} {bytes : List UInt8}
    {taken : Nat} (hsolid : fs.Solid path) (hget : fs.get (path ++ [name]) = some (.dir mode))
    (hsorted : sorted N fs (path ++ [name]) = children.names)
    (hchildren : ∀ below sent acks, below < levels →
      Triple (Sending fs start sent acks)
        (sendEntries N root (sendEntry N times root request below) (path ++ [name])
          children.names)
        (fun _ w => children.Sendable N ∧ Sending fs start (sent ++ bytes) (acks + taken) w)
        (fun _ => True)) :
    Triple (Sending fs start sent acks)
      (sendEntry N times root request levels (path ++ [name]) (nameText N name))
      (fun _ w => children.Sendable N ∧
        Sending fs start
          (sent ++ timesBytes request.preserveTimes times (path ++ [name]) ++
            directoryLine (mode &&& 0o777) (nameText N name) ++ bytes ++ endLine)
          (acks + timesAcks request.preserveTimes + 1 + taken + 1) w)
      (fun _ => True) := by
  have hplain : fs.Plain (path ++ [name]) := hsolid.concat_plain (by simp [hget])
  have hmetadata : (fs.attributes false (Loc.path (path ++ [name]))).1 =
      .ok (⟨.dir, mode, 0⟩, fs) := attributes_plain hplain hget
  -- the entries are listed and sorted, so they come in the order of the forest
  have hlisted : (fs.readDir (Loc.path (path ++ [name]))).1 =
      .ok (fs.children (path ++ [name]), fs) := by
    simp only [Fs.readDir, Fs.lookup_plain hplain, hget]
  cases levels with
  | zero => exact reject_triple fun _ _ => trivial
  | succ levels =>
      refine (require_triple fun _ _ => trivial).bind fun _ => .of_fact fun _ => ?_
      refine (onFs_sends (syscall_sees hmetadata)).bind_eq ?_
      refine (require_triple fun _ _ => trivial).bind fun _ => .of_fact fun _ => ?_
      refine (sendTimes_sends _).bind fun _ => ?_
      refine (require_triple fun _ _ => trivial).bind fun _ => .of_fact fun _ => ?_
      refine (sendBytes_sends _).bind fun _ => expectAck_sends.bind fun _ => ?_
      refine (onFs_sends (syscall_sees hlisted)).bind_eq ?_
      rw [← sorted, hsorted]
      refine (hchildren levels _ _ (Nat.lt_succ_self _)).bind fun _ => .of_fact fun hsendable => ?_
      refine (sendBytes_sends _).bind fun _ => ?_
      exact expectAck_sends.weaken (fun _ hw => hw) fun _ w hw => ⟨hsendable, hw⟩

/-- An entry whose name is checked and which is then sent. -/
theorem sendEntries_cons {sendEntry : Loc ν → List Char → ScpM ν Unit} {names : List ν}
    {obj : Obj ν} {fact : Prop} {sent' : List UInt8} {acks' : Nat}
    {Q : Unit → World ν → Prop} (hsolid : fs.Solid path)
    (hget : fs.get (path ++ [name]) = some obj) (hlink : ∀ text, obj ≠ .link text)
    (hentry : Triple (Sending fs start sent acks) (sendEntry (path ++ [name]) (nameText N name))
      (fun _ w => fact ∧ Sending fs start sent' acks' w) (fun _ => True))
    (hrest : ValidName N name → fact → Triple (Sending fs start sent' acks')
      (sendEntries N root sendEntry path names) Q (fun _ => True)) :
    Triple (Sending fs start sent acks) (sendEntries N root sendEntry path (name :: names)) Q
      (fun _ => True) := by
  have hplain : fs.Plain (path ++ [name]) := by
    refine hsolid.concat_plain fun text heq => ?_
    rw [hget] at heq
    exact hlink text (Option.some.inj heq)
  refine (orReject_triple fun _ _ => trivial).bind fun text => .of_fact fun htext => ?_
  -- the name is sent as a text, from which the sink has it back
  have hname : nameText N name = text := by simp [nameText, htext]
  refine (require_triple fun _ _ => trivial).bind fun _ => .of_fact fun hvalid => ?_
  -- the entry is no link, so it is its own canonical path
  have hcanonical : (Except.map (fun value => (value, fs))
      (fs.canonicalize (Loc.path (path ++ [name])))) = .ok (path ++ [name], fs) := by
    rw [Fs.canonicalize_plain hplain hget]
    rfl
  refine (onFs_sends (syscall_sees hcanonical)).bind_eq ?_
  refine (require_triple fun _ _ => trivial).bind fun _ => .of_fact fun _ => ?_
  rw [← hname] at hvalid ⊢
  refine hentry.bind fun _ => .of_fact fun hfact => ?_
  exact hrest ⟨by rw [htext, hname], hvalid⟩ hfact

/-- The entries of a directory, as far as they are sent. -/
theorem sendEntries_sends {forest : Forest ν} (levels : Nat) (hsolid : fs.Solid path)
    (hstands : forest.Stands N fs path) :
    Triple (Sending fs start sent acks)
      (sendEntries N root (sendEntry N times root request levels) path forest.names)
      (fun _ w => forest.Sendable N ∧
        Sending fs start (sent ++ forest.encode N request.preserveTimes times path)
          (acks + forest.acks N request.preserveTimes) w)
      (fun _ => True) := by
  induction forest generalizing levels path sent acks with
  | nil => exact .pure fun w hw => ⟨trivial, by simpa [encode, Forest.acks, toRecords] using hw⟩
  | file name mode data rest ih =>
      -- the entry is sent, then the rest; each of them is only sent if it may be
      rcases hstands with ⟨⟨ino, hget, hinode⟩, hrest⟩
      refine sendEntries_cons hsolid hget (by simp) (sendEntry_file hsolid hget hinode) ?_
      intro hname hsize
      refine (ih levels hsolid hrest).weaken (fun _ hw => hw) ?_
      rintro _ w ⟨hsendable, hw⟩
      refine ⟨⟨hname, hsize, hsendable⟩, ?_⟩
      rw [acks_file]
      simpa [encode, Nat.add_assoc] using hw
  | dir name mode children rest ihc ih =>
      rcases hstands with ⟨hget, hsorted, hinside, hrest⟩
      have hsolid' : fs.Solid (path ++ [name]) := Fs.solid_concat.mpr ⟨hsolid, mode, hget⟩
      refine sendEntries_cons hsolid hget (by simp)
        (sendEntry_dir hsolid hget hsorted fun below _ _ _ => ihc below hsolid' hinside) ?_
      intro hname hchildren
      refine (ih levels hsolid hrest).weaken (fun _ hw => hw) ?_
      rintro _ w ⟨hsendable, hw⟩
      refine ⟨⟨hname, hchildren, hsendable⟩, ?_⟩
      rw [acks_dir]
      simpa [encode, Nat.add_assoc] using hw

/-- The target of a request leads to the only entry of the tree, in the directory `dir`. -/
structure SourceTree (N : OsNames ν) (root : Loc ν) (request : ScpRequest) (fs : Fs ν)
    (dir : Loc ν) (tree : Forest ν) : Prop where
  target : ∃ name, tree.names = [name] ∧
    fs.canonicalize (root.path ++ (RelPath.ofText N request.target).segs) = .ok (dir ++ [name])
  stands : tree.Stands N fs dir

/-- The entry of the tree, as far as it is sent. -/
theorem sendEntry_tree {tree : Forest ν} (levels : Nat) (hsolid : fs.Solid path)
    (hnames : tree.names = [name]) (hname : ValidName N name) (hstands : tree.Stands N fs path) :
    Triple (Sending fs start sent acks)
      (sendEntry N times root request levels (path ++ [name]) (nameText N name))
      (fun _ w => tree.Sendable N ∧
        Sending fs start (sent ++ tree.encode N request.preserveTimes times path)
          (acks + tree.acks N request.preserveTimes) w)
      (fun _ => True) := by
  -- the tree has the one entry that was asked for
  cases tree with
  | nil => cases hnames
  | file name' mode data rest =>
      obtain ⟨rfl, hrest⟩ := List.cons.inj hnames
      obtain rfl := eq_nil_of_names hrest
      rcases hstands with ⟨⟨ino, hget, hinode⟩, -⟩
      refine (sendEntry_file hsolid hget hinode).weaken (fun _ hw => hw) ?_
      rintro _ w ⟨hsize, hw⟩
      refine ⟨⟨hname, hsize, trivial⟩, ?_⟩
      rw [acks_file]
      simpa [encode, Forest.acks, toRecords, Nat.add_assoc] using hw
  | dir name' mode children rest =>
      obtain ⟨rfl, hrest⟩ := List.cons.inj hnames
      obtain rfl := eq_nil_of_names hrest
      rcases hstands with ⟨hget, hsorted, hinside, -⟩
      have hsolid' : fs.Solid (path ++ [name']) := Fs.solid_concat.mpr ⟨hsolid, mode, hget⟩
      refine (sendEntry_dir hsolid hget hsorted fun below _ _ _ =>
        sendEntries_sends below hsolid' hinside).weaken (fun _ hw => hw) ?_
      rintro _ w ⟨hsendable, hw⟩
      refine ⟨⟨hname, hsendable, trivial⟩, ?_⟩
      rw [acks_dir]
      simpa [encode, Forest.acks, toRecords, Nat.add_assoc] using hw

variable (times) in
/-- A source that completes has sent the tree of its target, and was told to go on once
before it and once for each record, for a file twice. -/
theorem sendSource_sends {tree : Forest ν} (htree : SourceTree N root request fs path tree) :
    Triple (Sending fs start [] 0) (sendSource N times root request)
      (fun _ w => tree.Sendable N ∧
        Sending fs start (tree.encode N request.preserveTimes times path)
          (tree.acks N request.preserveTimes + 1) w)
      (fun _ => True) := by
  rcases htree.target with ⟨name, hnames, hcanonical⟩
  rcases Fs.canonicalize_ok hcanonical with ⟨hplain, obj, hget⟩
  have hsolid : fs.Solid path := by simpa using hplain.1
  -- the target is found and resolved as the tree says
  have hfound : Except.map (fun value => (value, fs)) (fs.lookup false (path ++ [name]).path) =
      .ok ((path ++ [name], obj), fs) := by
    rw [Fs.lookup_plain hplain, hget]
    rfl
  have htarget : Except.map (fun value => (value, fs))
      (fs.canonicalize (root.path ++ (RelPath.ofText N request.target).segs)) =
        .ok (path ++ [name], fs) := by
    rw [hcanonical]
    rfl
  refine (require_triple fun _ _ => trivial).bind fun _ => .of_fact fun _ => ?_
  refine (onFs_sends (syscall_sees htarget)).bind_eq ?_
  refine (require_triple fun _ _ => trivial).bind fun _ => .of_fact fun _ => ?_
  refine (onFs_sends (syscall_sees hfound)).bind_eq ?_
  refine (require_triple fun _ _ => trivial).bind fun _ => .of_fact fun _ => ?_
  refine (orReject_triple fun _ _ => trivial).bind fun text => .of_fact fun htext => ?_
  have htext' : N.toText name = some text := by simpa using htext
  obtain rfl : nameText N name = text := by simp [nameText, htext']
  refine (require_triple fun _ _ => trivial).bind fun _ => .of_fact fun hvalid => ?_
  -- the sink is ready
  refine expectAck_sends.bind fun _ => ?_
  refine (sendEntry_tree maxRecursionDepth hsolid hnames ⟨htext', hvalid⟩ htree.stands).weaken
    (fun _ hw => hw) ?_
  rintro _ w ⟨hsendable, hw⟩
  refine ⟨hsendable, ?_⟩
  rwa [List.nil_append, Nat.zero_add, Nat.add_comm] at hw

end Sends

/-! ## The sink's end -/

section Rebuilds

open Forest

variable {N : OsNames ν} {root target : Loc ν} {request : ScpRequest} {fs : Fs ν}

/-- The target of a request is a directory of the root with nothing in it. -/
structure EmptyTarget (N : OsNames ν) (root : Loc ν) (request : ScpRequest) (fs : Fs ν)
    (target : Loc ν) : Prop where
  relative : validateRelative (RelPath.ofText N request.target) = true
  found : ∃ mode, fs.lookup false (root.path ++ (RelPath.ofText N request.target).segs) =
    .ok (target, .dir mode)
  inside : root <+: target
  empty : ∀ n below, fs.get (target ++ [n] ++ below) = none

/-- A directory that a path leads to is canonical. -/
theorem canonicalize_of_lookup {segs : List (Seg ν)} {mode : Nat}
    (h : fs.lookup false segs = .ok (target, .dir mode)) :
    fs.canonicalize segs = .ok target ∧ fs.get target = some (.dir mode) := by
  simp only [Fs.lookup] at h
  split at h
  · rename_i loc hfound
    split at h
    · rename_i obj hget
      cases h
      have hfollow : fs.resolve true segs = .found target := by
        rw [← hfound]
        refine Fs.resolve_follow fun loc text hloc => ?_
        cases hfound.symm.trans hloc
        simp [hget]
      exact ⟨by simp only [Fs.canonicalize, hfollow], hget⟩
    · cases h
  · cases h
  · cases h

/-- An empty target is where the sink starts, and the tree stays as it is until then. -/
theorem EmptyTarget.resolve (h : EmptyTarget N root request fs target) :
    ∃ os, resolveSinkTarget N root request { fs } = .ok ⟨target, none⟩ os ∧ os.fs = fs := by
  rcases h.found with ⟨mode, hfound⟩
  rcases canonicalize_of_lookup hfound with ⟨hcanonical, hget⟩
  have hplain := (Fs.canonicalize_ok hcanonical).1
  -- the target is a directory, so it becomes the current one
  have hdir : Triple (Calm fs) (isDir target.path) (fun answer os => answer = true ∧ Calm fs os)
      (fun _ => False) := by
    refine (fsTry_observe_calm (Fs.lookup_plain hplain true)).bind_eq ?_
    rw [hget]
    exact .pure fun _ hos => ⟨rfl, hos⟩
  have hresolve : Triple (Calm fs) (resolveSinkTarget N root request)
      (fun found os => found = ⟨target, none⟩ ∧ Calm fs os) (fun _ => False) := by
    refine (require_pos h.relative).bind fun _ => ?_
    refine (fsTry_observe_calm hfound).bind_eq ?_
    refine (canonicalize_calm hcanonical).bind_eq ?_
    refine (require_pos h.inside).bind fun _ => ?_
    exact hdir.bind_eq (.pure fun _ hos => ⟨rfl, hos⟩)
  have hstart : Calm fs ({ fs } : Os ν) := ⟨rfl, fun _ => rfl⟩
  have hrun := hresolve _ hstart
  cases hresult : resolveSinkTarget N root request { fs } with
  | error error os =>
      rw [hresult] at hrun
      exact hrun.elim
  | ok found os =>
      rw [hresult] at hrun
      exact ⟨os, by rw [hrun.1], hrun.2.1⟩

omit [DecidableEq ν] in
/-- Placing the records takes nothing more from the stream. -/
theorem placeAll_rest (recursive : Bool) (rest : List UInt8) (sink : Sink ν)
    (recs : List Record) : (placeAll N recursive rest sink recs).rest = rest := by
  induction recs generalizing sink with
  | nil => rfl
  | cons record recs ih =>
      simp only [placeAll]
      split
      · rfl
      · exact ih _

omit [DecidableEq ν] in
theorem records_nil : records [] = ([], []) := records_none rfl

section Stream

variable {tree : Forest ν} (preserveTimes : Bool) (times : Loc ν → UInt64 × UInt64) (dir : Loc ν)

omit [DecidableEq ν]

theorem records_tree (hsend : tree.Sendable N) (hfit : tree.LinesFit N) :
    records (tree.encode N preserveTimes times dir) = (tree.toRecords N preserveTimes, []) := by
  have h := records_encode preserveTimes times dir [] hsend hfit
  simpa [StartsWith, records_nil] using h

/-- A tree whose lines fit and which is not nested too deep is planned as a whole. -/
theorem plan_tree (hsend : tree.Sendable N) (hfit : tree.LinesFit N)
    (hdepth : tree.nesting < maxRecursionDepth) :
    plan N true { current := target } (tree.encode N preserveTimes times dir) =
      ⟨tree.effects target, { current := target }, [], []⟩ := by
  have hroom : Sink.depth { current := target } + tree.nesting ≤ maxRecursionDepth := by
    simp only [Sink.depth, List.length_nil]
    omega
  have hplaced : placeAll N true [] { current := target } (tree.toRecords N preserveTimes ++ []) =
      before (tree.effects target) (placeAll N true [] { current := target } []) :=
    placeAll_toRecords preserveTimes [] hsend rfl hroom
  rw [List.append_nil] at hplaced
  simp only [plan, records_tree preserveTimes times dir hsend hfit, hplaced]
  simp [placeAll, before]

/-- Of any other tree something is left over or refused. -/
theorem plan_tree_incomplete (hsend : tree.Sendable N)
    (h : ¬(tree.nesting < maxRecursionDepth ∧ tree.LinesFit N)) :
    ¬(plan N true { current := target } (tree.encode N preserveTimes times dir)).Complete := by
  rintro ⟨hrest, hrefused, -⟩
  by_cases hfit : tree.LinesFit N
  · -- the tree is too deep: a directory is refused
    have hdeep : maxRecursionDepth < Sink.depth { current := target } + tree.nesting := by
      have hdepth : ¬tree.nesting < maxRecursionDepth := fun hdepth => h ⟨hdepth, hfit⟩
      simp only [Sink.depth, List.length_nil]
      omega
    have hne : (placeAll N true [] { current := target }
        (tree.toRecords N preserveTimes ++ [])).refused ≠ [] :=
      refused_toRecords preserveTimes [] hsend rfl (Nat.le_add_left 1 31) hdeep
    rw [List.append_nil] at hne
    rw [plan, records_tree preserveTimes times dir hsend hfit] at hrefused
    exact hne hrefused
  · -- a line is too long: something is left of the stream
    have hne := rest_encode_ne_nil preserveTimes times dir [] hsend hfit
    rw [List.append_nil] at hne
    rw [plan, placeAll_rest] at hrest
    exact hne hrest

end Stream

/-- In an empty directory a tree that stands elsewhere can be built, and then stands there
with nothing beside it. -/
theorem effects_rebuild {tree : Forest ν} {name : ν} {source : Fs ν} {dir : Loc ν}
    (hnames : tree.names = [name]) (hstands : tree.Stands N source dir)
    (hempty : ∀ n below, fs.get (target ++ [n] ++ below) = none) :
    ∃ fs', runEffects fs (tree.effects target) = some fs' ∧
      sorted N fs' target = tree.names ∧ tree.masked.Stands N fs' target := by
  have hdistinct : tree.Distinct := hstands.distinct (by simp [hnames])
  rcases runEffects_effects hdistinct (fun n _ => hempty n) with ⟨fs', hrun, hframe, hholds⟩
  have honly : ∀ n, fs'.get (target ++ [n]) ≠ none → n ∈ tree.names := by
    intro n hn
    by_contra hout
    have hsame := hframe.below hout []
    rw [hempty n [], List.append_nil] at hsame
    exact hn hsame
  have hordered : tree.names.Pairwise fun a b => N.le a b = true := by simp [hnames]
  refine ⟨fs', hrun, ?_, hholds.stands hdistinct hstands.ordered⟩
  rw [← names_masked]
  refine sorted_eq_names hholds ?_ ?_ ?_
  · simpa using honly
  · simpa using hdistinct.nodup
  · simpa using hordered

/-- The sink completes, it has answered what the source waited for, and the tree stands in
the target with nothing beside it. -/
def Rebuilt (N : OsNames ν) (tree : Forest ν) (target : Loc ν) (source source' : World ν)
    (result : EStateM.Result ScpProtocolError (World ν) Unit) : Prop :=
  ∃ sink, result = .ok () sink ∧
    source.wire.remaining = sink.wire.sent.flatten ++ source'.wire.remaining ∧
    sorted N sink.os.fs target = tree.names ∧ tree.masked.Stands N sink.os.fs target

section Trip

variable {times : Loc ν → UInt64 × UInt64} {sourceRoot dir : Loc ν} {sourceRequest : ScpRequest}
  {tree : Forest ν} {source source' : World ν} {events : List WireEvent}

/-- Both ends of a trip: what the source has sent, and how the sink takes it. -/
theorem trip_run (htree : SourceTree N sourceRoot sourceRequest source.os.fs dir tree)
    (hfresh : source.wire.sent = [])
    (hsent : sendSource N times sourceRoot sourceRequest source = .ok () source')
    (hroot : fs.Solid root) (htarget : EmptyTarget N root request fs target)
    (hrecursive : request.recursive = true)
    (hstream : streamBytes events = source'.wire.sent.flatten) (hends : endsInput events = true) :
    tree.Sendable N ∧
      source.wire.remaining =
        List.replicate (tree.acks N sourceRequest.preserveTimes + 1) 0 ++
          source'.wire.remaining ∧
      Triple (fun w => w = ⟨{ events }, { fs }⟩) (receiveSink N root request)
        (fun _ => EndsAsPlanned fs
          (plan N true { current := target } (tree.encode N sourceRequest.preserveTimes times dir))
          (List.replicate
            (acksFor (tree.encode N sourceRequest.preserveTimes times dir) + 1) [0]))
        (StopsAsPlanned fs
          (plan N true { current := target }
            (tree.encode N sourceRequest.preserveTimes times dir))) := by
  have hstart : Sending source.os.fs source.wire.remaining [] 0 source :=
    ⟨rfl, by simp [hfresh], rfl⟩
  have hsource := sendSource_sends times htree source hstart
  rw [hsent] at hsource
  rcases hsource with ⟨hsendable, -, hbytes, hacks⟩
  rcases htarget.resolve with ⟨os, hresolve, rfl⟩
  refine ⟨hsendable, hacks, ?_⟩
  have hsink := receiveSink_run N request hroot hresolve hends
  rw [hstream, hbytes, hrecursive] at hsink
  exact hsink

/-- A tree that is rebuilt is not nested too deep, and its lines fit. -/
theorem Rebuilt.fits (htree : SourceTree N sourceRoot sourceRequest source.os.fs dir tree)
    (hfresh : source.wire.sent = [])
    (hsent : sendSource N times sourceRoot sourceRequest source = .ok () source')
    (hroot : fs.Solid root) (htarget : EmptyTarget N root request fs target)
    (hrecursive : request.recursive = true)
    (hstream : streamBytes events = source'.wire.sent.flatten) (hends : endsInput events = true)
    (h : Rebuilt N tree target source source'
      (receiveSink N root request ⟨{ events }, { fs }⟩)) :
    tree.nesting < maxRecursionDepth ∧ tree.LinesFit N := by
  rcases trip_run htree hfresh hsent hroot htarget hrecursive hstream hends with
    ⟨hsendable, -, hrun⟩
  rcases h with ⟨sink, hresult, -⟩
  have hsink := hrun _ rfl
  rw [hresult] at hsink
  by_contra hnot
  exact plan_tree_incomplete _ times dir hsendable hnot hsink.1

/-- Sent by a source that completes, and received in an empty directory, a tree is rebuilt if
and only if fewer than `maxRecursionDepth` directories are nested in it and every control
line fits. -/
theorem round_trip_iff (htree : SourceTree N sourceRoot sourceRequest source.os.fs dir tree)
    (hfresh : source.wire.sent = [])
    (hsent : sendSource N times sourceRoot sourceRequest source = .ok () source')
    (hroot : fs.Solid root) (htarget : EmptyTarget N root request fs target)
    (hrecursive : request.recursive = true)
    (hstream : streamBytes events = source'.wire.sent.flatten) (hends : endsInput events = true) :
    Rebuilt N tree target source source' (receiveSink N root request ⟨{ events }, { fs }⟩) ↔
      tree.nesting < maxRecursionDepth ∧ tree.LinesFit N := by
  refine ⟨Rebuilt.fits htree hfresh hsent hroot htarget hrecursive hstream hends, ?_⟩
  -- the sink gets what the source has sent, and has the effects of the tree
  rintro ⟨hdepth, hfit⟩
  rcases trip_run htree hfresh hsent hroot htarget hrecursive hstream hends with
    ⟨hsendable, hacks, hrun⟩
  -- each message of the source is acknowledged once
  have hanswers : acksFor (tree.encode N sourceRequest.preserveTimes times dir) =
      tree.acks N sourceRequest.preserveTimes := by
    rw [acksFor, records_tree _ times dir hsendable hfit, Forest.acks]
  rw [plan_tree _ times dir hsendable hfit hdepth, hanswers] at hrun
  rcases htree.target with ⟨name, hnames, -⟩
  rcases effects_rebuild hnames htree.stands htarget.empty with ⟨fs', hmade, hrebuilt⟩
  have hsink := hrun _ rfl
  cases hresult : receiveSink N root request ⟨{ events }, { fs }⟩ with
  | error error sink =>
      -- the effects can all be run, so the sink does not fail
      rw [hresult] at hsink
      exact absurd ⟨rfl, rfl, rfl, rfl⟩ (hsink fs' hmade).1
  | ok value sink =>
      rw [hresult] at hsink
      rcases hsink with ⟨-, hmade', hreplies⟩
      obtain rfl := Option.some.inj (hmade.symm.trans hmade')
      refine ⟨sink, rfl, ?_, hrebuilt⟩
      rw [hacks, hreplies, List.flatten_replicate_singleton]

end Trip

end Rebuilds

/-! ## Trees of either kind -/

def isOk {ε σ α : Type} : EStateM.Result ε σ α → Bool
  | .ok _ _ => true
  | .error _ _ => false

theorem exists_of_isOk {ε σ α : Type} {result : EStateM.Result ε σ α} (h : isOk result = true) :
    ∃ value s, result = .ok value s := by
  cases result with
  | ok value s => exact ⟨value, s, rfl⟩
  | error => cases h

theorem emptyRoot_solid : emptyRoot.Solid [['r']] :=
  Fs.solid_concat.mpr ⟨Fs.solid_nil, 0o755, rfl⟩

theorem emptyRoot_target {request : ScpRequest} (htarget : request.target = ['.']) :
    EmptyTarget textNames [['r']] request emptyRoot [['r']] where
  relative := by rw [htarget]; rfl
  found := ⟨0o755, by rw [htarget]; rfl⟩
  inside := List.prefix_refl _
  empty n below := by simp [emptyRoot, Fs.get]

/-- A directory with one file. -/
def smallTree : Forest (List Char) := .dir ['a'] 0o750 (.file ['f'] 0o644 [120] .nil) .nil

def smallSource : World (List Char) where
  wire := { events := [.data (List.replicate 8 0)] }
  os := {
    fs := ⟨[([['r']], .dir 0o755), ([['r'], ['a']], .dir 0o750), ([['r'], ['a'], ['f']], .file 0)],
      fun _ => ⟨[120], 0o644⟩, 1⟩ }

/-- The small tree is rebuilt, with its times sent along. -/
theorem smallTree_is_rebuilt :
    ∃ source', sendSource textNames (fun _ => (7, 9)) [['r']]
        { preserveTimes := true, recursive := true, target := ['a'] } smallSource =
          .ok () source' ∧
      Rebuilt textNames smallTree [['r']] smallSource source'
        (receiveSink textNames [['r']] { recursive := true, target := ['.'] }
          ⟨{ events := [.data source'.wire.sent.flatten, .eof] }, { fs := emptyRoot }⟩) := by
  -- times are sent too, and do not matter
  have htree : SourceTree textNames [['r']]
      { preserveTimes := true, recursive := true, target := ['a'] } smallSource.os.fs [['r']]
      smallTree := ⟨⟨['a'], rfl, rfl⟩, by decide +kernel⟩
  have hfit : smallTree.nesting < maxRecursionDepth ∧ smallTree.LinesFit textNames := by
    refine ⟨by decide, ?_, ⟨?_, trivial⟩, trivial⟩
    · decide +kernel
    · decide +kernel
  rcases exists_of_isOk (show isOk (sendSource textNames (fun _ => (7, 9)) [['r']]
    { preserveTimes := true, recursive := true, target := ['a'] } smallSource) = true by
      decide +kernel) with ⟨_, source', hsent⟩
  refine ⟨source', hsent, ?_⟩
  exact (round_trip_iff htree rfl hsent emptyRoot_solid (emptyRoot_target rfl) rfl
    (by simp [streamBytes]) rfl).mpr hfit

/-- As many directories inside one another. -/
def nested : Nat → Forest (List Char)
  | 0 => .nil
  | depth + 1 => .dir ['d'] 0o755 (nested depth) .nil

theorem nesting_nested (depth : Nat) : (nested depth).nesting = depth := by
  induction depth with
  | zero => rfl
  | succ depth ih => simp [nested, Forest.nesting, ih]

/-- A source whose root holds nested directories, and the answers to their records. -/
def nestedSource (depth : Nat) : World (List Char) where
  wire := { events := [.data (List.replicate (2 * depth + 1) 0)] }
  os := {
    fs := ⟨(List.range (depth + 1)).map fun k => (['r'] :: List.replicate k ['d'], .dir 0o755),
      fun _ => { mode := 0 }, 0⟩ }

/-- The deepest chain of directories that a source sends: no sink takes it. -/
theorem deepChain_is_refused :
    ∃ source', SourceTree textNames [['r']] { recursive := true, target := ['d'] }
        (nestedSource maxRecursionDepth).os.fs [['r']] (nested maxRecursionDepth) ∧
      sendSource textNames (fun _ => (0, 0)) [['r']] { recursive := true, target := ['d'] }
        (nestedSource maxRecursionDepth) = .ok () source' ∧
      EmptyTarget textNames [['r']] { recursive := true, target := ['.'] } emptyRoot [['r']] ∧
      ¬Rebuilt textNames (nested maxRecursionDepth) [['r']] (nestedSource maxRecursionDepth)
        source' (receiveSink textNames [['r']] { recursive := true, target := ['.'] }
          ⟨{ events := [.data source'.wire.sent.flatten, .eof] }, { fs := emptyRoot }⟩) := by
  have htree : SourceTree textNames [['r']] { recursive := true, target := ['d'] }
      (nestedSource maxRecursionDepth).os.fs [['r']] (nested maxRecursionDepth) :=
    ⟨⟨['d'], rfl, by decide +kernel⟩, by decide +kernel⟩
  rcases exists_of_isOk (show isOk (sendSource textNames (fun _ => (0, 0)) [['r']]
    { recursive := true, target := ['d'] } (nestedSource maxRecursionDepth)) = true by
      decide +kernel) with ⟨_, source', hsent⟩
  have htarget : EmptyTarget textNames [['r']] { recursive := true, target := ['.'] } emptyRoot
      [['r']] := emptyRoot_target rfl
  refine ⟨source', htree, hsent, htarget, ?_⟩
  -- the source sends one level more than the sink takes
  intro hrebuilt
  have hfits := Rebuilt.fits htree rfl hsent emptyRoot_solid htarget rfl
    (by simp [streamBytes]) rfl hrebuilt
  rw [nesting_nested] at hfits
  exact absurd hfits.1 (lt_irrefl _)

end Rssh.Scp
