import Rssh.Transfer.RoundTrip

/-!
# Links under a source

A source makes every path canonical before it looks at it, so what it looks at is never a link:
a link that leads to a place in the root is followed, and only one that leads nowhere or out of the
root stops the transfer.

* `announced` reads off the messages of a source which entries its `C` and `D` records name, and
  `Direct` says that an entry is reached without a link.
* `wayOf` goes through a tree as a source does, up to the first link that would be followed or the
  first thing that stops the transfer.
* `send_source_follows_no_link_iff`: where there is a link, every run fails and names only direct
  entries exactly if no link is followed.
-/

namespace Rssh.Scp

open Posix Forest

/-! ## What the records name -/

/-- The paths that the `C` and `D` records of some messages name, inside the directories that are
open. The two messages after a `C` record are its content; `skip` is how many of them are to
come. -/
def announced : Nat → List (List Char) → List (List UInt8) → List (List (List Char))
  | _, _, [] => []
  | skip + 1, dirs, _ :: messages => announced skip dirs messages
  | 0, dirs, message :: messages =>
      match parseControl message 68, parseControl message 67 with
      | some control, _ => (dirs ++ [control.name]) :: announced 0 (dirs ++ [control.name]) messages
      | none, some control => (dirs ++ [control.name]) :: announced 2 dirs messages
      | none, none => announced 0 (if message = endLine then dirs.dropLast else dirs) messages

example : announced 0 [] [directoryLine 0o755 ['d'], fileLine 0o644 1 ['f'], [67], [0], endLine] =
    [[['d']], [['d'], ['f']]] := by decide +kernel

variable {ν : Type}

/-- The names of a path, where it neither goes up nor stays. -/
def segNames : List (Seg ν) → List ν
  | [] => []
  | .name n :: rest => n :: segNames rest
  | .cur :: rest => segNames rest
  | .up :: rest => segNames rest

/-- The entry that a path of record names stands for, the first of which is that of `base`. -/
def entryLoc (N : OsNames ν) (base : Loc ν) (path : List (List Char)) : Loc ν :=
  base ++ path.tail.map N.ofText

variable [DecidableEq ν]

/-- The entry that is named is reached without a link. -/
def Direct (N : OsNames ν) (root : Loc ν) (request : ScpRequest) (fs : Fs ν)
    (path : List (List Char)) : Prop :=
  fs.Plain (entryLoc N (segNames (targetPath N root request)) path)

/-- The path that is asked for, a slash at its end left out, is a link, or a link stands somewhere
below what it leads to. -/
def HasLink (N : OsNames ν) (root : Loc ν) (request : ScpRequest) (fs : Fs ν) : Prop :=
  (∃ loc text, fs.lookup false ((targetPath N root request).rdropWhile isCurSeg) =
    .ok (loc, .link text)) ∨
  ∃ loc below n text, fs.canonicalize (targetPath N root request) = .ok loc ∧ loc <+: below ∧
    fs.Solid below ∧ fs.get (below ++ [n]) = some (.link text)

/-! ## The way through a tree -/

/-- How far a source comes: through the whole tree, to something that stops it, or to a link that
it follows. -/
inductive Way where
  | whole
  | stopped
  | followed
deriving DecidableEq, Repr

/-- A record is sent for it. -/
def announces (fs : Fs ν) (recursive : Bool) (loc : Loc ν) : Bool :=
  match fs.get loc with
  | some (.file ino) => decide ((fs.inode ino).data.length ≤ maxFileSize)
  | some (.dir _) => recursive
  | some (.link _) => false
  | some .special => false
  | none => false

/-- The link leads to a place in the root for which a record is sent. -/
def leadsOn (root : Loc ν) (fs : Fs ν) (recursive : Bool) (link : Loc ν) : Bool :=
  match fs.canonicalize link.path with
  | .ok loc => decide (root <+: loc) && announces fs recursive loc
  | .error _ => false

/-- The way through the entries of a directory, with the way through each of them and with whether
a level is left for them. -/
def wayOfEntries (N : OsNames ν) (root : Loc ν) (fs : Fs ν) (recursive left : Bool)
    (way : Loc ν → Way) (dir : Loc ν) : List ν → Way
  | [] => .whole
  | n :: names =>
      if (N.toText n).any validateName then
        match fs.get (dir ++ [n]) with
        | some (.link _) =>
            if left && leadsOn root fs recursive (dir ++ [n]) then .followed else .stopped
        | none | some (.file _) | some (.dir _) | some .special =>
            match way (dir ++ [n]) with
            | .whole => wayOfEntries N root fs recursive left way dir names
            | .stopped => .stopped
            | .followed => .followed
      else .stopped

/-- The way through what stands at a location, with the levels that are left. -/
def wayOf (N : OsNames ν) (root : Loc ν) (fs : Fs ν) (recursive : Bool) : Nat → Loc ν → Way
  | 0, _ => .stopped
  | levels + 1, loc =>
      if announces fs recursive loc then
        match fs.get loc with
        | some (.dir _) =>
            wayOfEntries N root fs recursive (decide (0 < levels))
              (wayOf N root fs recursive levels) loc (sorted N fs loc)
        | none | some (.file _) | some (.link _) | some .special => .whole
      else .stopped

/-! ## Reading the records -/

section Announced

variable {good : List (List Char) → Prop} {skip skip' : Nat} {dirs dirs' : List (List Char)}
  {sent : List (List UInt8)}

omit [DecidableEq ν]

/-- More messages name more entries. -/
theorem announced_append (skip : Nat) (dirs : List (List Char)) (xs ys : List (List UInt8)) :
    announced skip dirs xs <+: announced skip dirs (xs ++ ys) := by
  induction xs generalizing skip dirs with
  | nil =>
      simp only [announced]
      exact List.nil_prefix
  | cons message xs ih =>
      cases skip with
      | succ skip => exact ih skip dirs
      | zero =>
          simp only [List.cons_append, announced]
          split
          · exact (List.prefix_cons_inj _).mpr (ih _ _)
          · exact (List.prefix_cons_inj _).mpr (ih _ _)
          · exact ih _ _

/-- After these messages, all that was named is good, and this is left to be read with what
follows. -/
def Spoken (good : List (List Char) → Prop) (skip : Nat) (dirs : List (List Char))
    (sent : List (List UInt8)) : Prop :=
  ∀ more, ∃ paths, announced 0 [] (sent ++ more) = paths ++ announced skip dirs more ∧
    ∀ path ∈ paths, good path

theorem spoken_nil : Spoken good 0 [] [] := fun _ => ⟨[], rfl, nofun⟩

theorem Spoken.said (h : Spoken good skip dirs sent) : ∀ path ∈ announced 0 [] sent, good path := by
  rcases h [] with ⟨paths, hpaths, hgood⟩
  rw [List.append_nil] at hpaths
  rw [hpaths]
  simpa [announced] using hgood

/-- What one message does to the reading. -/
def Speaks (good : List (List Char) → Prop) (skip : Nat) (dirs : List (List Char))
    (message : List UInt8) (skip' : Nat) (dirs' : List (List Char)) : Prop :=
  ∀ more, ∃ paths, announced skip dirs (message :: more) = paths ++ announced skip' dirs' more ∧
    ∀ path ∈ paths, good path

/-- A message that may be spoken next is added to what was spoken. -/
theorem Spoken.concat {message : List UInt8} (h : Spoken good skip dirs sent)
    (hmessage : Speaks good skip dirs message skip' dirs') :
    Spoken good skip' dirs' (sent ++ [message]) := by
  intro more
  rcases h (message :: more) with ⟨before, hbefore, hgood⟩
  rcases hmessage more with ⟨paths, hpaths, hgood'⟩
  refine ⟨before ++ paths, ?_, ?_⟩
  · rw [List.append_assoc, List.singleton_append, hbefore, hpaths, List.append_assoc]
  · intro path hpath
    rcases List.mem_append.mp hpath with hpath | hpath
    · exact hgood path hpath
    · exact hgood' path hpath

theorem speaks_content (message : List UInt8) :
    Speaks good (skip + 1) dirs message skip dirs :=
  fun _ => ⟨[], rfl, nofun⟩

theorem parseControl_of_head? {line : List UInt8} {kind : UInt8} (h : line.head? ≠ some kind) :
    parseControl line kind = none := by
  simp [parseControl, h]

/-- A line of times announces nothing. -/
theorem speaks_times (modified accessed : UInt64) :
    Speaks good 0 dirs (timesLine modified accessed) 0 dirs := by
  intro more
  have hhead : (timesLine modified accessed).head? = some 84 := by
    rw [timesLine_eq, encodeUtf8_framed (by decide)]
    rfl
  have hend : timesLine modified accessed ≠ endLine := by
    intro heq
    rw [heq] at hhead
    cases hhead
  refine ⟨[], ?_, nofun⟩
  simp only [announced, parseControl_of_head? (show _ ≠ some 68 by rw [hhead]; decide),
    parseControl_of_head? (show _ ≠ some 67 by rw [hhead]; decide), if_neg hend, List.nil_append]

theorem announced_directory (mode : Nat) (name : List Char) (more : List (List UInt8)) :
    announced 0 dirs (directoryLine (mode &&& 0o777) name :: more) =
      (dirs ++ [name]) :: announced 0 (dirs ++ [name]) more := by
  have hparse : parseControl (directoryLine (mode &&& 0o777) name) 68 = some _ :=
    parseControl_line (show 'D'.toNat < 128 by decide) name (and_permissions_le mode) (by decide)
  simp only [announced, hparse]

theorem speaks_directory {name : List Char} (mode : Nat) (h : good (dirs ++ [name])) :
    Speaks good 0 dirs (directoryLine (mode &&& 0o777) name) 0 (dirs ++ [name]) := by
  intro more
  refine ⟨[dirs ++ [name]], ?_, by simpa using h⟩
  rw [announced_directory, List.singleton_append]

/-- A file announces its own path; the two messages behind its line are its content. -/
theorem announced_file (mode : Nat) {size : Nat} (hsize : size ≤ maxFileSize) (name : List Char)
    (more : List (List UInt8)) :
    announced 0 dirs (fileLine (mode &&& 0o777) size name :: more) =
      (dirs ++ [name]) :: announced 2 dirs more := by
  have hsize' : size < 2 ^ 64 := by
    simp only [maxFileSize] at hsize
    omega
  have hparse : parseControl (fileLine (mode &&& 0o777) size name) 67 = some _ :=
    parseControl_line (show 'C'.toNat < 128 by decide) name (and_permissions_le mode) hsize'
  have hother : parseControl (fileLine (mode &&& 0o777) size name) 68 = none := by
    refine parseControl_of_head? ?_
    rw [fileLine, controlLine_head? (by decide)]
    decide
  simp only [announced, hparse, hother]

/-- The line of a file may be sent where its path is good. -/
theorem speaks_file {name : List Char} (mode : Nat) {size : Nat} (hsize : size ≤ maxFileSize)
    (h : good (dirs ++ [name])) :
    Speaks good 0 dirs (fileLine (mode &&& 0o777) size name) 2 dirs := by
  intro more
  refine ⟨[dirs ++ [name]], ?_, by simpa using h⟩
  rw [announced_file mode hsize, List.singleton_append]

/-- The end of a directory announces nothing, and leaves it. -/
theorem speaks_end (name : List Char) : Speaks good 0 (dirs ++ [name]) endLine 0 dirs := by
  intro more
  refine ⟨[], ?_, nofun⟩
  have hnone : ∀ kind, kind ≠ 69 → parseControl endLine kind = none := by
    intro kind hkind
    refine parseControl_of_head? ?_
    simpa [endLine, eq_comm] using hkind
  simp only [announced, hnone 68 (by decide), hnone 67 (by decide), if_true, List.nil_append,
    List.dropLast_concat]

end Announced

/-! ## Runs with failures -/

section Telling

variable {fs : Fs ν} {good : List (List Char) → Prop} {skip skip' : Nat}
  {dirs dirs' : List (List Char)} {α : Type}

omit [DecidableEq ν]

/-- All that was named is good. -/
def Said (good : List (List Char) → Prop) (w : World ν) : Prop :=
  ∀ path ∈ announced 0 [] w.wire.sent, good path

/-- The tree, and how the messages sent so far are read; whatever is to fail. -/
structure Telling (fs : Fs ν) (good : List (List Char) → Prop) (skip : Nat)
    (dirs : List (List Char)) (w : World ν) : Prop where
  tree : w.os.fs = fs
  spoken : Spoken good skip dirs w.wire.sent

theorem Telling.said {w : World ν} (h : Telling fs good skip dirs w) : Said good w := h.spoken.said

/-- A message that announces good paths keeps the source telling them, sent or not. -/
theorem sendBytes_tells {bytes : List UInt8} (h : Speaks good skip dirs bytes skip' dirs') :
    Triple (Telling fs good skip dirs) (sendBytes bytes) (fun _ => Telling fs good skip' dirs')
      (Said good) := by
  intro w hw
  have hspoken := hw.spoken.concat h
  simp only [sendBytes, onWire, ScpWire.send]
  cases w.wire.sendFails w.wire.sent.length with
  | true => exact hspoken.said
  | false => exact ⟨hw.tree, hspoken⟩

/-- An acknowledgement announces nothing, whether it comes or not. -/
theorem expectAck_tells :
    Triple (Telling fs good skip dirs) expectAck (fun _ => Telling fs good skip dirs)
      (Said good) := by
  have hbyte : Triple (Telling fs good skip dirs) (onWire ScpWire.readByte)
      (fun _ => Telling fs good skip dirs) (Said good) := by
    intro w hw
    have hsent := w.wire.readByte_sent
    simp only [onWire]
    rcases hread : w.wire.readByte with ⟨error | byte, wire⟩
    · rw [hread] at hsent
      exact fun path hpath => hw.said path (hsent ▸ hpath)
    · rw [hread] at hsent
      exact ⟨hw.tree, hsent ▸ hw.spoken⟩
  refine hbyte.bind fun byte => ?_
  exact (require_triple fun _ => Telling.said).weaken (fun _ hw => hw) fun _ _ hw => hw.2

/-- A call that leaves the tree alone announces nothing. -/
theorem onFs_tells {call : Sys ν α} {Q : α → Prop}
    (h : Triple (fun os => os.fs = fs) call (fun a os => Q a ∧ os.fs = fs) (fun _ => True)) :
    Triple (Telling fs good skip dirs) (onFs (fsCall call))
      (fun a w => Q a ∧ Telling fs good skip dirs w) (Said good) := by
  intro w hw
  have hcall := fsCall_triple h w.os hw.tree
  simp only [onFs]
  cases hrun : fsCall call w.os with
  | error error os => exact hw.said
  | ok value os =>
      rw [hrun] at hcall
      exact ⟨hcall.1, hcall.2, hw.spoken⟩

/-- A look sees the tree as it is, or fails. -/
theorem observe_sees {look : Fs ν → Except Errno α} :
    Triple (fun os => os.fs = fs) (observe look) (fun a os => look fs = .ok a ∧ os.fs = fs)
      (fun _ => True) := by
  intro os hos
  subst hos
  cases hrun : observe look os with
  | error errno os' => trivial
  | ok value os' =>
      obtain ⟨-, hlook, rfl⟩ := observe_eq_ok_iff.mp hrun
      exact ⟨hlook, rfl⟩

/-- The line of times announces nothing, with the option or without. -/
theorem sendTimes_tells (request : ScpRequest) (times : Loc ν → UInt64 × UInt64) (loc : Loc ν) :
    Triple (Telling fs good 0 dirs) (sendTimes request times loc)
      (fun _ => Telling fs good 0 dirs) (Said good) := by
  unfold sendTimes
  split
  · exact (sendBytes_tells (speaks_times _ _)).bind fun _ => expectAck_tells
  · exact .pure fun _ hw => hw

end Telling

section Direct

variable {N : OsNames ν} {times : Loc ν → UInt64 × UInt64} {root : Loc ν} {request : ScpRequest}
  {fs : Fs ν} {good : List (List Char) → Prop} {base : Loc ν} {dirs : List (List Char)}
  {loc : Loc ν} {name : List Char}

omit [DecidableEq ν] in
/-- A call that changes nothing. -/
theorem syscall_reads {α : Type} {effect : Fs ν → CallEffect ν α}
    (hsame : ∀ value fs', (effect fs).1 = .ok (value, fs') → fs' = fs) :
    Triple (fun os => os.fs = fs) (syscall effect)
      (fun a os => (effect fs).1 = .ok (a, fs) ∧ os.fs = fs) (fun _ => True) := by
  intro os hos
  subst hos
  cases hrun : syscall effect os with
  | error errno os' => trivial
  | ok value os' =>
      obtain ⟨-, fs', hcall, rfl⟩ := syscall_eq_ok_iff.mp hrun
      obtain rfl := hsame value fs' hcall
      exact ⟨hcall, rfl⟩

/-- What `symlink_metadata` shows of a plain location. -/
theorem attributes_ok (hplain : fs.Plain loc) {metadata : Metadata}
    (h : (fs.attributes false loc.path).1 = .ok (metadata, fs)) :
    ∃ obj, fs.get loc = some obj ∧ metadata = fs.metadata obj := by
  cases hget : fs.get loc with
  | none => simp [Fs.attributes, Fs.lookup_plain hplain, hget] at h
  | some obj =>
      rw [attributes_plain hplain hget] at h
      cases h
      exact ⟨obj, rfl, rfl⟩

/-- What is not announced stops the source without a record. -/
theorem sendEntry_silent {levels : Nat} (hplain : fs.Plain loc)
    (h : ¬(0 < levels ∧ announces fs request.recursive loc = true))
    {Q : Unit → World ν → Prop} :
    Triple (Telling fs good 0 dirs) (sendEntry N times root request levels loc name) Q
      (Said good) := by
  cases levels with
  | zero => exact reject_triple fun _ => Telling.said
  | succ levels =>
      have hsilent : announces fs request.recursive loc = false := by
        rw [← Bool.not_eq_true]
        exact fun hyes => h ⟨Nat.succ_pos _, hyes⟩
      refine (require_triple fun _ => Telling.said).bind fun _ => .of_fact fun _ => ?_
      refine (onFs_tells (syscall_reads fun _ _ => Fs.attributes_same)).bind fun metadata => ?_
      refine .of_fact fun hmetadata => ?_
      rcases attributes_ok hplain hmetadata with ⟨obj, hget, rfl⟩
      refine (require_triple fun _ => Telling.said).bind fun _ => .of_fact fun _ => ?_
      refine (sendTimes_tells request times loc).bind fun _ => ?_
      -- what is refused is refused before its line is sent
      rw [announces, hget] at hsilent
      cases obj with
      | dir mode =>
          refine (require_neg ?_ fun _ => Telling.said).bind_fails
          simpa using hsilent
      | file ino =>
          refine (require_neg ?_ fun _ => Telling.said).bind_fails
          simpa [Fs.metadata] using hsilent
      | link | special => exact reject_triple fun _ => Telling.said

omit [DecidableEq ν] in
theorem entryLoc_concat (hdirs : dirs ≠ []) (name : List Char) :
    entryLoc N base (dirs ++ [name]) = entryLoc N base dirs ++ [N.ofText name] := by
  rcases List.exists_cons_of_ne_nil hdirs with ⟨top, rest, rfl⟩
  simp [entryLoc]

/-- A sender of entries that names direct entries only, and ends well only where the whole way was
free. -/
def SendsDirect (N : OsNames ν) (root : Loc ν) (request : ScpRequest) (fs : Fs ν) (base : Loc ν)
    (levels : Nat) (sendEntry : Loc ν → List Char → ScpM ν Unit) : Prop :=
  ∀ loc name dirs, fs.Plain loc → entryLoc N base (dirs ++ [name]) = loc →
    wayOf N root fs request.recursive levels loc ≠ .followed →
    Triple (Telling fs (fun path => fs.Plain (entryLoc N base path)) 0 dirs) (sendEntry loc name)
      (fun _ w => wayOf N root fs request.recursive levels loc = .whole ∧
        Telling fs (fun path => fs.Plain (entryLoc N base path)) 0 dirs w)
      (Said fun path => fs.Plain (entryLoc N base path))

/-- If the way through the entries meets no link that is followed, each of them is announced where
it is, and the directory is finished only if all of them are. -/
theorem sendEntries_direct {levels : Nat} {dir : Loc ν} {names : List ν}
    (hsend : SendsDirect N root request fs base levels (sendEntry N times root request levels))
    (hsolid : fs.Solid dir) (hdirs : dirs ≠ []) (hdir : entryLoc N base dirs = dir)
    (hway : wayOfEntries N root fs request.recursive (decide (0 < levels))
      (wayOf N root fs request.recursive levels) dir names ≠ .followed) :
    Triple (Telling fs (fun path => fs.Plain (entryLoc N base path)) 0 dirs)
      (sendEntries N root (sendEntry N times root request levels) dir names)
      (fun _ w => wayOfEntries N root fs request.recursive (decide (0 < levels))
          (wayOf N root fs request.recursive levels) dir names = .whole ∧
        Telling fs (fun path => fs.Plain (entryLoc N base path)) 0 dirs w)
      (Said fun path => fs.Plain (entryLoc N base path)) := by
  induction names with
  | nil => exact .pure fun _ hw => ⟨rfl, hw⟩
  | cons n names ih =>
      refine (orReject_triple fun _ => Telling.said).bind fun childName => ?_
      refine .of_fact fun htext => ?_
      refine (require_triple fun _ => Telling.said).bind fun _ => .of_fact fun hvalid => ?_
      refine (onFs_tells observe_sees).bind fun child => .of_fact fun hchild => ?_
      refine (require_triple fun _ => Telling.said).bind fun _ => .of_fact fun hroot => ?_
      -- names that are no text, or no valid ones, stop the source, as they do the way
      have hname : (N.toText n).any validateName = true := by simp [htext, hvalid]
      rw [wayOfEntries, if_pos hname] at hway ⊢
      have hplainChild := (Fs.canonicalize_ok hchild).1
      cases hget : fs.get (dir ++ [n]) with
      | none =>
          have hmissing := (@Fs.resolve_concat _ _ fs true dir n hsolid).1 hget
          simp [Fs.canonicalize, hmissing] at hchild
      | some obj =>
          cases obj with
          | link text =>
              simp only [hget] at hway
              -- a link that leads on is followed; all others stop the source before a line
              have hstops : ¬(0 < levels ∧ announces fs request.recursive child = true) := by
                rintro ⟨hlevels, hyes⟩
                refine hway ?_
                simp [leadsOn, hchild, hroot, hyes, hlevels]
              exact (sendEntry_silent hplainChild hstops).bind_fails
          | file | dir | special =>
              simp only [hget] at hway ⊢
              have hplain : fs.Plain (dir ++ [n]) := hsolid.concat_plain (by simp [hget])
              rw [Fs.canonicalize_plain hplain hget] at hchild
              cases hchild
              -- any other entry is its own canonical path
              have hloc : entryLoc N base (dirs ++ [childName]) = dir ++ [n] := by
                rw [entryLoc_concat hdirs, hdir, N.ofText_toText n childName htext]
              cases hentry : wayOf N root fs request.recursive levels (dir ++ [n]) with
              | followed => simp [hentry] at hway
              | stopped =>
                  refine (hsend _ childName dirs hplain hloc (by simp [hentry])).bind fun _ => ?_
                  refine .of_fact fun hwhole => ?_
                  rw [hentry] at hwhole
                  cases hwhole
              | whole =>
                  simp only [hentry] at hway ⊢
                  refine (hsend _ childName dirs hplain hloc (by simp [hentry])).bind fun _ => ?_
                  exact .of_fact fun _ => ih hway

/-- An entry at a plain location. -/
theorem sendEntry_direct (levels : Nat) :
    SendsDirect N root request fs base levels (sendEntry N times root request levels) := by
  -- by induction on the levels that are left, for all entries of a directory at once
  induction levels with
  | zero =>
      intro loc name dirs _ _ _
      exact reject_triple fun _ => Telling.said
  | succ levels ih =>
      intro loc name dirs hplain hloc hway
      by_cases hyes : announces fs request.recursive loc = true
      · have hgood : fs.Plain (entryLoc N base (dirs ++ [name])) := hloc ▸ hplain
        rw [wayOf, if_pos hyes] at hway ⊢
        refine (require_triple fun _ => Telling.said).bind fun _ => .of_fact fun _ => ?_
        refine (onFs_tells (syscall_reads fun _ _ => Fs.attributes_same)).bind fun metadata => ?_
        refine .of_fact fun hmetadata => ?_
        rcases attributes_ok hplain hmetadata with ⟨obj, hget, rfl⟩
        refine (require_triple fun _ => Telling.said).bind fun _ => .of_fact fun _ => ?_
        refine (sendTimes_tells request times loc).bind fun _ => ?_
        rw [announces, hget] at hyes
        cases obj with
        | link | special => cases hyes
        | file ino =>
            -- a file is announced where it is: its path is plain
            have hsize : (fs.metadata (.file ino)).size ≤ maxFileSize := by
              simpa [Fs.metadata] using hyes
            simp only [hget]
            refine (require_triple fun _ => Telling.said).bind fun _ => .of_fact fun _ => ?_
            refine (sendBytes_tells (speaks_file _ hsize hgood)).bind fun _ => ?_
            refine expectAck_tells.bind fun _ => ?_
            refine (onFs_tells (syscall_reads fun _ _ => Fs.readFile_same)).bind fun data => ?_
            refine .of_fact fun _ => (sendBytes_tells (speaks_content data)).bind fun _ => ?_
            refine (sendBytes_tells (speaks_content [0])).bind fun _ => ?_
            exact expectAck_tells.weaken (fun _ hw => hw) fun _ _ hw => ⟨trivial, hw⟩
        | dir mode =>
            -- a directory is announced where it is, and then its entries are
            simp only [hget] at hway ⊢
            have hsolid := hplain.solid hget
            have hdir : entryLoc N base (dirs ++ [name]) = loc := hloc
            refine (require_triple fun _ => Telling.said).bind fun _ => .of_fact fun _ => ?_
            refine (sendBytes_tells (speaks_directory _ hgood)).bind fun _ => ?_
            refine expectAck_tells.bind fun _ => ?_
            have hlisted : (fs.readDir loc.path).1 = .ok (fs.children loc, fs) := by
              simp only [Fs.readDir, Fs.lookup_plain hplain, hget]
            refine (onFs_tells (syscall_sees hlisted)).bind_eq ?_
            refine (sendEntries_direct ih hsolid (by simp) hdir hway).bind fun _ => ?_
            refine .of_fact fun hwhole => ?_
            refine (sendBytes_tells (speaks_end name)).bind fun _ => ?_
            exact expectAck_tells.weaken (fun _ hw => hw) fun _ _ hw => ⟨hwhole, hw⟩
      · -- what is refused announces nothing
        refine sendEntry_silent hplain ?_
        exact fun h => hyes h.2

end Direct

/-! ## A free way -/

section Whole

variable {N : OsNames ν} {root : Loc ν} {fs : Fs ν} {recursive left : Bool} {way : Loc ν → Way}
  {dir : Loc ν} {names : List ν}

/-- On a free way through a directory there is no link, and the way through each entry is free. -/
theorem wayOfEntries_whole
    (h : wayOfEntries N root fs recursive left way dir names = .whole) {n : ν} (hn : n ∈ names) :
    (∀ text, fs.get (dir ++ [n]) ≠ some (.link text)) ∧ way (dir ++ [n]) = .whole := by
  induction names with
  | nil => cases hn
  | cons m names ih =>
      rw [wayOfEntries] at h
      by_cases hname : (N.toText m).any validateName = true
      swap
      · rw [if_neg hname] at h
        cases h
      rw [if_pos hname] at h
      -- a way that is whole goes past no link, whole through each entry
      have hcons : (∀ text, fs.get (dir ++ [m]) ≠ some (.link text)) ∧ way (dir ++ [m]) = .whole ∧
          wayOfEntries N root fs recursive left way dir names = .whole := by
        cases hget : fs.get (dir ++ [m]) with
        | none =>
            simp only [hget] at h
            cases hway : way (dir ++ [m]) <;> simp_all
        | some obj =>
            cases obj with
            | link text =>
                simp only [hget] at h
                split at h <;> cases h
            | file | dir | special =>
                simp only [hget] at h
                cases hway : way (dir ++ [m]) <;> simp_all
      rcases List.mem_cons.mp hn with rfl | hn
      · exact ⟨hcons.1, hcons.2.1⟩
      · exact ih hcons.2.2 hn

/-- Below a free way there is no link. -/
theorem wayOf_whole {levels : Nat} {loc below : Loc ν} {n : ν} {text : LinkText ν}
    (h : wayOf N root fs recursive levels loc = .whole) (hbelow : loc <+: below)
    (hsolid : fs.Solid below) : fs.get (below ++ [n]) ≠ some (.link text) := by
  induction levels generalizing loc with
  | zero => cases h
  | succ levels ih =>
      rcases (hsolid.of_prefix hbelow).get with ⟨mode, hdir⟩
      rw [wayOf] at h
      split_ifs at h
      simp only [hdir] at h
      -- the entries of a directory are the ones that are listed
      have hentry : ∀ m, fs.get (loc ++ [m]) ≠ none →
          (∀ text, fs.get (loc ++ [m]) ≠ some (.link text)) ∧
            wayOf N root fs recursive levels (loc ++ [m]) = .whole := by
        intro m hm
        refine wayOfEntries_whole h ?_
        rw [sorted, List.mem_insertionSort]
        exact Fs.mem_children.mpr hm
      rcases hbelow with ⟨rest, rfl⟩
      cases rest with
      | nil =>
          rw [List.append_nil]
          intro hlink
          exact (hentry n (by simp [hlink])).1 text hlink
      | cons m rest =>
          -- the link is below an entry, through which the way is whole as well
          have hm : loc ++ [m] <+: loc ++ m :: rest := ⟨rest, by simp⟩
          rcases (hsolid.of_prefix hm).get with ⟨mode', hmode⟩
          exact ih (hentry m (by simp [hmode])).2 hm

end Whole

/-! ## The path that is asked for -/

section Lexical

variable {fs : Fs ν} {follow : Bool} {dir : Loc ν} {segs : List (Seg ν)}

/-- A walk along directories meets no link: where it ends well, it ends at the names of its
path. -/
theorem advance_plain (hup : Seg.up ∉ segs) (h : fs.Plain (dir ++ segNames segs)) :
    (∃ errno, fs.advance follow dir segs = .failed errno) ∨
      (∃ dir' n, fs.advance follow dir segs = .missing dir' n) ∨
      fs.advance follow dir segs = .found (dir ++ segNames segs) := by
  induction segs generalizing dir with
  | nil =>
      right
      right
      simp [Fs.advance, segNames]
  | cons seg segs ih =>
      have hup' : Seg.up ∉ segs := fun hmem => hup (List.mem_cons_of_mem _ hmem)
      cases seg with
      | up => simp at hup
      | cur => exact ih hup' h
      | name n =>
          simp only [segNames] at h ⊢
          have happend : dir ++ n :: segNames segs = dir ++ [n] ++ segNames segs := by simp
          cases hget : fs.get (dir ++ [n]) with
          | none =>
              simp only [Fs.advance, hget]
              split
              · exact .inr (.inl ⟨_, _, rfl⟩)
              · exact .inl ⟨_, rfl⟩
          | some obj =>
              cases obj with
              | dir mode =>
                  simp only [Fs.advance, hget]
                  rw [happend] at h ⊢
                  exact ih hup' h
              | file | special =>
                  simp only [Fs.advance, hget]
                  split
                  · rename_i hnil
                    subst hnil
                    exact .inr (.inr rfl)
                  · exact .inl ⟨_, rfl⟩
              | link text =>
                  -- on the way there are directories only, and at its end there is no link
                  exfalso
                  rw [happend] at h
                  rcases List.eq_nil_or_concat (segNames segs) with hnil | ⟨names, last, hlast⟩
                  · rw [hnil, List.append_nil] at h
                    exact h.2 text hget
                  · rw [hlast, List.concat_eq_append, ← List.append_assoc] at h
                    have hsolid := h.1
                    rw [List.dropLast_concat] at hsolid
                    rcases (hsolid.of_prefix (List.prefix_append _ _)).get with ⟨mode, hmode⟩
                    rw [hget] at hmode
                    cases hmode

/-- A plain path without `..` leads to where its names say. -/
theorem resolve_plain_names (hup : Seg.up ∉ segs) (h : fs.Plain (segNames segs)) {loc : Loc ν}
    (hfound : fs.resolve follow segs = .found loc) : loc = segNames segs := by
  have hwalk := @advance_plain _ _ fs follow [] segs hup h
  rw [Fs.resolve, Fs.resolveFrom] at hfound
  rcases hwalk with ⟨errno, hwalk⟩ | ⟨dir', n, hwalk⟩ | hwalk
  · simp [hwalk] at hfound
  · simp [hwalk] at hfound
  · simpa [hwalk, eq_comm] using hfound

omit [DecidableEq ν] in
theorem segNames_append (xs ys : List (Seg ν)) :
    segNames (xs ++ ys) = segNames xs ++ segNames ys := by
  induction xs with
  | nil => rfl
  | cons seg xs ih => cases seg <;> simp [segNames, ih]

omit [DecidableEq ν] in
/-- A slash at the end is no name. -/
theorem segNames_rdropWhile (segs : List (Seg ν)) :
    segNames (segs.rdropWhile isCurSeg) = segNames segs := by
  have hcur : ∀ xs : List (Seg ν), (∀ seg ∈ xs, isCurSeg seg = true) → segNames xs = [] := by
    intro xs hxs
    induction xs with
    | nil => rfl
    | cons seg xs ih =>
        have hseg := hxs seg List.mem_cons_self
        cases seg with
        | cur => exact ih fun seg hseg => hxs seg (List.mem_cons_of_mem _ hseg)
        | up | name => cases hseg
  have hsplit : segs.rdropWhile isCurSeg ++ segs.rtakeWhile isCurSeg = segs :=
    List.rdropWhile_append_rtakeWhile ..
  have hnames := congrArg segNames hsplit
  rw [segNames_append, hcur _ fun seg hseg => List.mem_rtakeWhile_imp hseg,
    List.append_nil] at hnames
  exact hnames

end Lexical

/-! ## Runs without failures -/

section Told

variable {fs : Fs ν} {good : List (List Char) → Prop} {skip skip' : Nat}
  {dirs dirs' : List (List Char)} {k : Nat} {α : Type} {E : World ν → Prop}

omit [DecidableEq ν]

/-- Neither the channel nor the system has failures to come, the peer has this many answers left
that tell to go on, and how the messages sent so far are read. -/
structure Told (fs : Fs ν) (skip : Nat) (dirs : List (List Char)) (k : Nat) (w : World ν) :
    Prop where
  calm : Calm fs w.os
  sends : ∀ n, w.wire.sendFails n = false
  remaining : w.wire.remaining = List.replicate k 0
  spoken : Spoken (fun _ => True) skip dirs w.wire.sent

theorem sendBytes_told {bytes : List UInt8}
    (h : Speaks (fun _ => True) skip dirs bytes skip' dirs') :
    Triple (Told fs skip dirs k) (sendBytes bytes) (fun _ => Told fs skip' dirs' k) E := by
  intro w hw
  simp only [sendBytes, onWire, ScpWire.send, hw.sends, Bool.false_eq_true, if_false]
  exact ⟨hw.calm, hw.sends, hw.remaining, hw.spoken.concat h⟩

/-- With acknowledgements left, one is taken. -/
theorem expectAck_told :
    Triple (Told fs skip dirs (1 + k)) expectAck (fun _ => Told fs skip dirs k) E := by
  have hbyte : Triple (Told fs skip dirs (1 + k)) (onWire ScpWire.readByte)
      (fun byte w => byte = 0 ∧ Told fs skip dirs k w) E := by
    intro w hw
    have hremaining : w.wire.remaining = 0 :: List.replicate k 0 := by
      rw [hw.remaining, Nat.add_comm, List.replicate_succ]
    rcases ScpWire.readByte_cons hremaining with ⟨wire, hread, htook, hrest⟩
    simp only [onWire, hread]
    refine ⟨trivial, hw.calm, ?_, hrest, ?_⟩
    · rw [htook.sendFails]
      exact hw.sends
    · rw [htook.sent]
      exact hw.spoken
  exact hbyte.bind_eq (require_pos rfl)

/-- Without faults a call on the unchanged tree succeeds. -/
theorem syscall_told {effect : Fs ν → CallEffect ν α} {a : α} (h : (effect fs).1 = .ok (a, fs)) :
    Triple (Told fs skip dirs k) (onFs (fsCall (syscall effect)))
      (fun b w => b = a ∧ Told fs skip dirs k w) E := by
  intro w hw
  obtain ⟨htree, hcalm⟩ := hw.calm
  have hrun : syscall effect w.os = .ok a (w.os.after fs (effect w.os.fs).2) :=
    syscall_of_ok (hcalm _) (htree.symm ▸ h)
  simp only [onFs, fsCall, hrun]
  exact ⟨trivial, ⟨rfl, hcalm⟩, hw.sends, hw.remaining, hw.spoken⟩

theorem observe_told {look : Fs ν → Except Errno α} {a : α} (h : look fs = .ok a) :
    Triple (Told fs skip dirs k) (onFs (fsCall (observe look)))
      (fun b w => b = a ∧ Told fs skip dirs k w) E :=
  syscall_told (by simp [h, Except.map])

/-- The answers that the times before an entry take. -/
theorem sendTimes_told (request : ScpRequest) (times : Loc ν → UInt64 × UInt64) (loc : Loc ν) :
    Triple (Told fs 0 dirs (timesAcks request.preserveTimes + k)) (sendTimes request times loc)
      (fun _ => Told fs 0 dirs k) E := by
  unfold sendTimes timesAcks
  split
  · exact (sendBytes_told (speaks_times _ _)).bind fun _ => expectAck_told
  · rw [Nat.zero_add]
    exact .pure fun _ hw => hw

/-- Something was named that is not good. -/
def Passed (good : List (List Char) → Prop) (w : World ν) : Prop :=
  ∃ path ∈ announced 0 [] w.wire.sent, ¬good path

/-- The record that names it. -/
theorem sendBytes_passes {bytes : List UInt8} {path : List (List Char)}
    (h : path ∈ announced skip dirs [bytes]) (hbad : ¬good path) :
    Triple (Told fs skip dirs k) (sendBytes bytes) (fun _ => Passed good) (Passed good) := by
  intro w hw
  simp only [sendBytes, onWire, ScpWire.send, hw.sends, Bool.false_eq_true, if_false]
  rcases hw.spoken [bytes] with ⟨paths, hpaths, -⟩
  refine ⟨path, ?_, hbad⟩
  rw [hpaths]
  exact List.mem_append_right _ h

/-! ### What was named stays named -/

/-- A bad path that was announced stays announced. -/
theorem Passed.of_prefix {w w' : World ν} (h : Passed good w)
    (hsent : w.wire.sent <+: w'.wire.sent) : Passed good w' := by
  rcases h with ⟨path, hpath, hbad⟩
  rcases hsent with ⟨more, hmore⟩
  refine ⟨path, ?_, hbad⟩
  rw [← hmore]
  exact (announced_append 0 [] _ more).subset hpath

/-- Sending takes back nothing. -/
theorem sendBytes_passed (bytes : List UInt8) :
    Lasts (Passed good) (sendBytes bytes : ScpM ν Unit) := by
  intro w hw
  simp only [sendBytes, onWire, ScpWire.send]
  cases w.wire.sendFails w.wire.sent.length with
  | true => exact hw.of_prefix (List.prefix_append _ _)
  | false => exact hw.of_prefix (List.prefix_append _ _)

/-- Waiting for an acknowledgement takes back nothing. -/
theorem expectAck_passed : Lasts (Passed good) (expectAck : ScpM ν Unit) := by
  have hbyte : Lasts (Passed good) (onWire ScpWire.readByte : ScpM ν UInt8) := by
    intro w hw
    have hsent := w.wire.readByte_sent
    simp only [onWire]
    rcases hread : w.wire.readByte with ⟨error | byte, wire⟩
    · rw [hread] at hsent
      exact hw.of_prefix ⟨[], by simpa using hsent.symm⟩
    · rw [hread] at hsent
      exact hw.of_prefix ⟨[], by simpa using hsent.symm⟩
  exact hbyte.bind fun byte => require_lasts

theorem onFs_passed (f : FsM ν α) : Lasts (Passed good) (onFs f) := by
  intro w hw
  simp only [onFs]
  cases f w.os with
  | ok value os => exact hw.of_prefix (List.prefix_refl _)
  | error error os => exact hw.of_prefix (List.prefix_refl _)

theorem sendTimes_passed (request : ScpRequest) (times : Loc ν → UInt64 × UInt64) (loc : Loc ν) :
    Lasts (Passed good) (sendTimes request times loc) := by
  unfold sendTimes
  split
  · exact (sendBytes_passed _).bind fun _ => expectAck_passed
  · exact Lasts.pure

end Told

section Passed

variable {N : OsNames ν} {times : Loc ν → UInt64 × UInt64} {root : Loc ν} {request : ScpRequest}
  {good : List (List Char) → Prop}

/-- The entries of a directory take back nothing that was announced, if one of them does not. -/
theorem sendEntries_passed {send : Loc ν → List Char → ScpM ν Unit}
    (hsend : ∀ loc name, Lasts (Passed good) (send loc name)) (dir : Loc ν) (names : List ν) :
    Lasts (Passed good) (sendEntries N root send dir names) := by
  induction names with
  | nil => exact Lasts.pure
  | cons n names ih =>
      refine orReject_lasts.bind fun childName => require_lasts.bind fun _ => ?_
      refine (onFs_passed _).bind fun child => require_lasts.bind fun _ => ?_
      exact (hsend child childName).bind fun _ => ih

/-- An entry takes back nothing that was announced before it. -/
theorem sendEntry_passed (levels : Nat) (loc : Loc ν) (name : List Char) :
    Lasts (Passed good) (sendEntry N times root request levels loc name) := by
  -- by induction on the levels, over every branch of the source
  induction levels generalizing loc name with
  | zero => exact reject_triple fun _ hw => hw
  | succ levels ih =>
      refine require_lasts.bind fun _ => (onFs_passed _).bind fun metadata => ?_
      refine require_lasts.bind fun _ => (sendTimes_passed request times loc).bind fun _ => ?_
      cases metadata.kind with
      | link | special => exact reject_triple fun _ hw => hw
      | dir =>
          refine require_lasts.bind fun _ => (sendBytes_passed _).bind fun _ => ?_
          refine expectAck_passed.bind fun _ => (onFs_passed _).bind fun names => ?_
          refine (sendEntries_passed ih loc _).bind fun _ => ?_
          exact (sendBytes_passed _).bind fun _ => expectAck_passed
      | file =>
          refine require_lasts.bind fun _ => (sendBytes_passed _).bind fun _ => ?_
          refine expectAck_passed.bind fun _ => (onFs_passed _).bind fun data => ?_
          refine (sendBytes_passed _).bind fun _ => (sendBytes_passed [0]).bind fun _ => ?_
          exact expectAck_passed

end Passed

/-! ## Along the way -/

section Walks

variable {N : OsNames ν} {times : Loc ν → UInt64 × UInt64} {root : Loc ν} {request : ScpRequest}
  {fs : Fs ν} {good : List (List Char) → Prop} {base : Loc ν} {dirs : List (List Char)}
  {loc : Loc ν} {name : List Char} {levels k : Nat}

/-- Something that is announced under a name that is not good. -/
theorem sendEntry_passes (hplain : fs.Plain loc) (hroot : root <+: loc)
    (hyes : announces fs request.recursive loc = true) (hbad : ¬good (dirs ++ [name])) :
    Triple (Told fs 0 dirs (timesAcks request.preserveTimes + k))
      (sendEntry N times root request (levels + 1) loc name) (fun _ => Passed good)
      (Passed good) := by
  rw [announces] at hyes
  cases hget : fs.get loc with
  | none => simp [hget] at hyes
  | some obj =>
      rw [hget] at hyes
      refine (require_pos hroot).bind fun _ => ?_
      refine (syscall_told (attributes_plain hplain hget)).bind_eq ?_
      cases obj with
      | link | special => cases hyes
      | file ino =>
          have hsize : (fs.metadata (.file ino)).size ≤ maxFileSize := by
            simpa [Fs.metadata] using hyes
          refine (require_pos (by simp [Fs.metadata])).bind fun _ => ?_
          refine (sendTimes_told request times loc).bind fun _ => ?_
          refine (require_pos hsize).bind fun _ => ?_
          -- the line of a file is what announces it
          have hnamed : dirs ++ [name] ∈ announced 0 dirs [fileLine
              ((fs.metadata (.file ino)).mode &&& 0o777) (fs.metadata (.file ino)).size name] := by
            rw [announced_file _ hsize]
            exact List.mem_cons_self
          refine (sendBytes_passes hnamed hbad).bind fun _ => ?_
          refine expectAck_passed.bind fun _ => (onFs_passed _).bind fun data => ?_
          refine (sendBytes_passed _).bind fun _ => (sendBytes_passed [0]).bind fun _ => ?_
          exact expectAck_passed
      | dir mode =>
          refine (require_pos (by simp [Fs.metadata])).bind fun _ => ?_
          refine (sendTimes_told request times loc).bind fun _ => ?_
          refine (require_pos hyes).bind fun _ => ?_
          -- the line of a directory is what announces it
          have hnamed : dirs ++ [name] ∈ announced 0 dirs [directoryLine
              ((fs.metadata (.dir mode)).mode &&& 0o777) name] := by
            rw [announced_directory]
            exact List.mem_cons_self
          refine (sendBytes_passes hnamed hbad).bind fun _ => ?_
          refine expectAck_passed.bind fun _ => (onFs_passed _).bind fun names => ?_
          refine Lasts.bind (sendEntries_passed (sendEntry_passed levels) loc _) fun _ => ?_
          exact (sendBytes_passed _).bind fun _ => expectAck_passed

/-- With enough answers, a program goes as the way says: to its end, or past a link. -/
def Walks (fs : Fs ν) (good : List (List Char) → Prop) (dirs : List (List Char)) (way : Way)
    (x : ScpM ν Unit) : Prop :=
  match way with
  | .whole => ∃ b, ∀ k, Triple (Told fs 0 dirs (b + k)) x (fun _ => Told fs 0 dirs k)
      fun _ => False
  | .followed => ∃ b, ∀ k, Triple (Told fs 0 dirs (b + k)) x (fun _ => Passed good) (Passed good)
  | .stopped => True

/-- A sender of entries that goes as the way through them says. -/
def SendsAlong (N : OsNames ν) (root : Loc ν) (request : ScpRequest) (fs : Fs ν) (base : Loc ν)
    (levels : Nat) (sendEntry : Loc ν → List Char → ScpM ν Unit) : Prop :=
  ∀ loc name dirs, fs.Plain loc → root <+: loc → entryLoc N base (dirs ++ [name]) = loc →
    Walks fs (fun path => fs.Plain (entryLoc N base path)) dirs
      (wayOf N root fs request.recursive levels loc) (sendEntry loc name)

/-- The source goes through the entries of a directory as the way does: to the end, to where it
stops, or to the link that it follows. -/
theorem sendEntries_walks {dir : Loc ν} (names : List ν)
    (hsend : SendsAlong N root request fs base levels (sendEntry N times root request levels))
    (hsolid : fs.Solid dir) (hroot : root <+: dir) (hdirs : dirs ≠ [])
    (hdir : entryLoc N base dirs = dir) :
    Walks fs (fun path => fs.Plain (entryLoc N base path)) dirs
      (wayOfEntries N root fs request.recursive (decide (0 < levels))
        (wayOf N root fs request.recursive levels) dir names)
      (sendEntries N root (sendEntry N times root request levels) dir names) := by
  induction names with
  | nil =>
      refine ⟨0, fun k => ?_⟩
      rw [Nat.zero_add]
      exact .pure fun _ hw => hw
  | cons n names ih =>
      cases htext : N.toText n with
      | none => simp [wayOfEntries, htext, Walks]
      | some childName =>
          by_cases hvalid : validateName childName = true
          swap
          · simp [wayOfEntries, htext, hvalid, Walks]
          have hname : (N.toText n).any validateName = true := by simp [htext, hvalid]
          have hloc : entryLoc N base (dirs ++ [childName]) = dir ++ [n] := by
            rw [entryLoc_concat hdirs, hdir, N.ofText_toText n childName htext]
          -- the checks before the entry itself
          have hentry : ∀ {child : Loc ν} {Q : Unit → World ν → Prop} {E : World ν → Prop}
              {j : Nat},
              fs.canonicalize (Loc.path (dir ++ [n])) = .ok child → root <+: child →
              Triple (Told fs 0 dirs j) (do
                sendEntry N times root request levels child childName
                sendEntries N root (sendEntry N times root request levels) dir names) Q E →
              Triple (Told fs 0 dirs j)
                (sendEntries N root (sendEntry N times root request levels) dir (n :: names))
                Q E := by
            intro child Q E j hchild hinside hrest
            refine (orReject_some htext).bind_eq ((require_pos hvalid).bind fun _ => ?_)
            exact (observe_told hchild).bind_eq ((require_pos hinside).bind fun _ => hrest)
          rw [wayOfEntries, if_pos hname]
          have hrest : Lasts (Passed fun path => fs.Plain (entryLoc N base path))
              (sendEntries N root (sendEntry N times root request levels) dir names) :=
            sendEntries_passed (sendEntry_passed levels) dir names
          cases hget : fs.get (dir ++ [n]) with
          | none =>
              have hstops : wayOf N root fs request.recursive levels (dir ++ [n]) = .stopped := by
                cases levels <;> simp [wayOf, announces, hget]
              simp only [hstops]
              trivial
          | some obj =>
              cases obj with
              | link text =>
                  simp only
                  split
                  swap
                  · trivial
                  rename_i hleads
                  rw [Bool.and_eq_true, decide_eq_true_eq, leadsOn] at hleads
                  rcases hleads with ⟨hlevels, hleads⟩
                  rcases Nat.exists_eq_add_one_of_ne_zero hlevels.ne' with ⟨below, rfl⟩
                  cases hchild : fs.canonicalize (Loc.path (dir ++ [n])) with
                  | error errno => simp [hchild] at hleads
                  | ok child =>
                      simp only [hchild, Bool.and_eq_true, decide_eq_true_eq] at hleads
                      have hplain := (Fs.canonicalize_ok hchild).1
                      have hbad : ¬fs.Plain (entryLoc N base (dirs ++ [childName])) := by
                        rw [hloc]
                        intro hplain
                        exact hplain.2 text hget
                      refine ⟨timesAcks request.preserveTimes, fun k => hentry hchild hleads.1 ?_⟩
                      exact (sendEntry_passes hplain hleads.1 hleads.2 hbad).bind fun _ => hrest
              | file | dir | special =>
                  have hplain : fs.Plain (dir ++ [n]) := hsolid.concat_plain (by simp [hget])
                  have hchild := Fs.canonicalize_plain hplain hget
                  have hinside : root <+: dir ++ [n] := hroot.trans (List.prefix_append _ _)
                  have hwalk := hsend (dir ++ [n]) childName dirs hplain hinside hloc
                  cases hway : wayOf N root fs request.recursive levels (dir ++ [n]) with
                  | stopped => trivial
                  | followed =>
                      rw [hway] at hwalk
                      rcases hwalk with ⟨b, hwalk⟩
                      exact ⟨b, fun k => hentry hchild hinside ((hwalk k).bind fun _ => hrest)⟩
                  | whole =>
                      rw [hway] at hwalk
                      rcases hwalk with ⟨b, hwalk⟩
                      simp only
                      cases hways : wayOfEntries N root fs request.recursive (decide (0 < levels))
                        (wayOf N root fs request.recursive levels) dir names with
                      | stopped => trivial
                      | whole =>
                          rw [hways] at ih
                          rcases ih with ⟨c, ih⟩
                          refine ⟨b + c, fun k => hentry hchild hinside ?_⟩
                          rw [Nat.add_assoc]
                          exact (hwalk (c + k)).bind fun _ => ih k
                      | followed =>
                          rw [hways] at ih
                          rcases ih with ⟨c, ih⟩
                          refine ⟨b + c, fun k => hentry hchild hinside ?_⟩
                          rw [Nat.add_assoc]
                          exact ((hwalk (c + k)).fails fun _ => False.elim).bind fun _ => ih k

/-- What comes before the record of an entry. -/
theorem sendEntry_told {loc : Loc ν} {name : List Char} {dirs : List (List Char)} {levels : Nat}
    {obj : Obj ν} {Q : Unit → World ν → Prop} {E : World ν → Prop} {j : Nat}
    (hplain : fs.Plain loc) (hroot : root <+: loc) (hget : fs.get loc = some obj)
    (hlink : obj.isLink = false)
    (hrest : Triple (Told fs 0 dirs j)
      (match (fs.metadata obj).kind with
      | .dir => sendDirectory N root request (sendEntry N times root request levels) loc name
          (fs.metadata obj)
      | .file => sendFile loc name (fs.metadata obj)
      | .link | .special => reject) Q E) :
    Triple (Told fs 0 dirs (timesAcks request.preserveTimes + j))
      (sendEntry N times root request (levels + 1) loc name) Q E := by
  refine (require_pos hroot).bind fun _ => ?_
  refine (syscall_told (attributes_plain hplain hget)).bind_eq ?_
  refine (require_pos ?_).bind fun _ => ?_
  · cases obj <;> simp_all [Fs.metadata, Obj.isLink]
  · exact (sendTimes_told request times loc).bind fun _ => hrest

/-- An entry at a plain location. -/
theorem sendEntry_walks (levels : Nat) :
    SendsAlong N root request fs base levels (sendEntry N times root request levels) := by
  induction levels with
  | zero =>
      intro loc name dirs _ _ _
      trivial
  | succ levels ih =>
      intro loc name dirs hplain hroot hloc
      rw [wayOf]
      by_cases hyes : announces fs request.recursive loc = true
      swap
      · rw [if_neg hyes]
        trivial
      rw [if_pos hyes]
      rw [announces] at hyes
      cases hget : fs.get loc with
      | none => simp [hget] at hyes
      | some obj =>
          rw [hget] at hyes
          cases obj with
          | link | special => cases hyes
          | file ino =>
              have hsize : (fs.metadata (.file ino)).size ≤ maxFileSize := by
                simpa [Fs.metadata] using hyes
              have hread : ∃ data, (fs.readFile loc.path).1 = .ok (data, fs) := by
                rcases Fs.resolve_plain hplain true with ⟨_, -, hres⟩ | ⟨_, _, -, hnone, -⟩
                · exact ⟨_, by simp only [Fs.readFile, hres, hget]; rfl⟩
                · rw [hget] at hnone
                  cases hnone
              rcases hread with ⟨data, hread⟩
              refine ⟨timesAcks request.preserveTimes + 1 + 1, fun k => ?_⟩
              rw [Nat.add_assoc, Nat.add_assoc]
              refine sendEntry_told hplain hroot hget rfl ((require_pos hsize).bind fun _ => ?_)
              refine (sendBytes_told (speaks_file _ hsize trivial)).bind fun _ => ?_
              refine expectAck_told.bind fun _ => (syscall_told hread).bind_eq ?_
              refine (sendBytes_told (speaks_content data)).bind fun _ => ?_
              refine (sendBytes_told (speaks_content [0])).bind fun _ => ?_
              exact expectAck_told
          | dir mode =>
              have hsolid := hplain.solid hget
              have hlisted : (fs.readDir loc.path).1 = .ok (fs.children loc, fs) := by
                simp only [Fs.readDir, Fs.lookup_plain hplain, hget]
              have hwalk := sendEntries_walks (sorted N fs loc) ih hsolid hroot
                (show dirs ++ [name] ≠ [] by simp) hloc
              -- the record of the directory, and then its entries
              have hopen : ∀ {Q : Unit → World ν → Prop} {E : World ν → Prop} {j : Nat},
                  Triple (Told fs 0 (dirs ++ [name]) j) (do
                    sendEntries N root (sendEntry N times root request levels) loc (sorted N fs loc)
                    sendBytes endLine
                    expectAck) Q E →
                  Triple (Told fs 0 dirs (timesAcks request.preserveTimes + (1 + j)))
                    (sendEntry N times root request (levels + 1) loc name) Q E := by
                intro Q E j hrest
                refine sendEntry_told hplain hroot hget rfl ((require_pos hyes).bind fun _ => ?_)
                refine (sendBytes_told (speaks_directory _ trivial)).bind fun _ => ?_
                exact expectAck_told.bind fun _ => (syscall_told hlisted).bind_eq hrest
              simp only
              cases hways : wayOfEntries N root fs request.recursive (decide (0 < levels))
                (wayOf N root fs request.recursive levels) loc (sorted N fs loc) with
              | stopped => trivial
              | followed =>
                  rw [hways] at hwalk
                  rcases hwalk with ⟨b, hwalk⟩
                  refine ⟨timesAcks request.preserveTimes + (1 + b), fun k => ?_⟩
                  rw [Nat.add_assoc, Nat.add_assoc]
                  refine hopen ((hwalk k).bind fun _ => ?_)
                  exact (sendBytes_passed _).bind fun _ => expectAck_passed
              | whole =>
                  rw [hways] at hwalk
                  rcases hwalk with ⟨b, hwalk⟩
                  refine ⟨timesAcks request.preserveTimes + (1 + (b + 1)), fun k => ?_⟩
                  rw [Nat.add_assoc, Nat.add_assoc, Nat.add_assoc]
                  refine hopen ((hwalk (1 + k)).bind fun _ => ?_)
                  exact (sendBytes_told (speaks_end name)).bind fun _ => expectAck_told

end Walks

/-! ## The law -/

/-- The target of a request is resolved to a place in the root with a name that can be sent, and
a record is sent for it. -/
structure Announced (N : OsNames ν) (root : Loc ν) (request : ScpRequest) (fs : Fs ν)
    (loc : Loc ν) : Prop where
  relative : validateRelative (RelPath.ofText N request.target) = true
  resolved : fs.canonicalize (targetPath N root request) = .ok loc
  inside : root <+: loc
  name : ∃ text, loc.getLast?.bind N.toText = some text ∧ validateName text = true
  announces : announces fs request.recursive loc = true

/-- The source follows no link: what it announces is reached directly, and on its way through the
tree something stops it before a link that it would follow. -/
def FollowsNoLink (N : OsNames ν) (root : Loc ν) (request : ScpRequest) (fs : Fs ν) : Prop :=
  ∀ loc, Announced N root request fs loc →
    fs.Plain (segNames (targetPath N root request)) ∧
      wayOf N root fs request.recursive maxRecursionDepth loc ≠ .followed

section Law

variable {N : OsNames ν} {times : Loc ν → UInt64 × UInt64} {root : Loc ν} {request : ScpRequest}
  {fs : Fs ν} {loc : Loc ν}

/-- A valid request does not go up. -/
theorem up_notMem_targetPath (h : validateRelative (RelPath.ofText N request.target) = true) :
    Seg.up ∉ targetPath N root request := by
  simp only [validateRelative, Bool.and_eq_true, decide_eq_true_eq] at h
  simp only [targetPath, Loc.path, List.mem_append, List.mem_map, not_or]
  refine ⟨?_, h.2⟩
  rintro ⟨n, -, heq⟩
  cases heq

/-- A target that is reached directly is found at the names of its path. -/
theorem resolved_eq (hrelative : validateRelative (RelPath.ofText N request.target) = true)
    (hresolved : fs.canonicalize (targetPath N root request) = .ok loc)
    (hplain : fs.Plain (segNames (targetPath N root request))) :
    loc = segNames (targetPath N root request) := by
  have hfound : fs.resolve true (targetPath N root request) = .found loc := by
    simp only [Fs.canonicalize] at hresolved
    split at hresolved <;> cases hresolved
    assumption
  exact resolve_plain_names (up_notMem_targetPath hrelative) hplain hfound

/-- Where the way is free, there is no link. -/
theorem not_hasLink (hrelative : validateRelative (RelPath.ofText N request.target) = true)
    (hresolved : fs.canonicalize (targetPath N root request) = .ok loc)
    (hplain : fs.Plain (segNames (targetPath N root request))) {levels : Nat}
    (hway : wayOf N root fs request.recursive levels loc = .whole) :
    ¬HasLink N root request fs := by
  -- either the path asked for ends at a link, or there is one below what it leads to
  rintro (⟨found, text, hfound⟩ | ⟨loc', below, n, text, hloc, hbelow, hsolid, hlink⟩)
  · -- a plain path is found where its names say, and no link is there
    have hup : Seg.up ∉ (targetPath N root request).rdropWhile isCurSeg := by
      intro hmem
      exact up_notMem_targetPath hrelative ((List.rdropWhile_prefix ..).subset hmem)
    have hplain' : fs.Plain (segNames ((targetPath N root request).rdropWhile isCurSeg)) := by
      rwa [segNames_rdropWhile]
    simp only [Fs.lookup] at hfound
    split at hfound
    · rename_i found' hresolve
      obtain rfl := resolve_plain_names hup hplain' hresolve
      split at hfound
      · rename_i obj hget
        cases hfound
        exact hplain'.2 text hget
      · cases hfound
    · cases hfound
    · cases hfound
  · rw [hresolved] at hloc
    cases hloc
    exact wayOf_whole hway hbelow hsolid hlink

variable (times) in
/-- Where no link is followed, no run that meets one ends well, and all that is named is
direct. -/
theorem sendSource_direct (hlink : HasLink N root request fs)
    (h : FollowsNoLink N root request fs) :
    Triple (Telling fs (Direct N root request fs) 0 []) (sendSource N times root request)
      (fun _ _ => False) (Said (Direct N root request fs)) := by
  refine (require_triple fun _ => Telling.said).bind fun _ => .of_fact fun hrelative => ?_
  refine (onFs_tells observe_sees).bind fun loc => .of_fact fun hresolved => ?_
  refine (require_triple fun _ => Telling.said).bind fun _ => .of_fact fun hinside => ?_
  refine (onFs_tells observe_sees).bind fun found => .of_fact fun _ => ?_
  refine (require_triple fun _ => Telling.said).bind fun _ => .of_fact fun _ => ?_
  refine (orReject_triple fun _ => Telling.said).bind fun name => .of_fact fun hname => ?_
  refine (require_triple fun _ => Telling.said).bind fun _ => .of_fact fun hvalid => ?_
  refine expectAck_tells.bind fun _ => ?_
  -- the canonical path is plain; the one asked for has to be as well
  have hplain := (Fs.canonicalize_ok hresolved).1
  by_cases hyes : announces fs request.recursive loc = true
  · obtain ⟨hbase, hway⟩ := h loc ⟨hrelative, hresolved, hinside, ⟨name, hname, hvalid⟩, hyes⟩
    have hloc : entryLoc N (segNames (targetPath N root request)) ([] ++ [name]) = loc := by
      rw [resolved_eq hrelative hresolved hbase]
      simp [entryLoc]
    refine (sendEntry_direct maxRecursionDepth loc name [] hplain hloc hway).weaken
      (fun _ hw => hw) ?_
    intro _ _ hw
    -- to be finished, the way would have to be without a link
    exact not_hasLink hrelative hresolved hbase hw.1 hlink
  · exact sendEntry_silent hplain fun hannounced => hyes hannounced.2

variable (times) in
/-- A link that is followed: with enough answers of the peer, an entry behind it is named. -/
theorem sendSource_passes (hann : Announced N root request fs loc)
    (h : ¬(fs.Plain (segNames (targetPath N root request)) ∧
      wayOf N root fs request.recursive maxRecursionDepth loc ≠ .followed)) :
    ∃ k, Triple (Told fs 0 [] k) (sendSource N times root request)
      (fun _ => Passed (Direct N root request fs)) (Passed (Direct N root request fs)) := by
  rcases hann.name with ⟨name, hname, hvalid⟩
  rcases Fs.canonicalize_ok hann.resolved with ⟨hplain, obj, hget⟩
  have hlookup : fs.lookup false loc.path = .ok (loc, obj) := by
    rw [Fs.lookup_plain hplain, hget]
  have hobj : obj.isLink = false := by
    cases obj with
    | link text => exact absurd hget (hplain.2 text)
    | file | dir | special => rfl
  have hentry : ∃ b, Triple (Told fs 0 [] b)
      (sendEntry N times root request maxRecursionDepth loc name)
      (fun _ => Passed (Direct N root request fs)) (Passed (Direct N root request fs)) := by
    -- either a link below was followed, or the path asked for goes through one
    by_cases hbase : fs.Plain (segNames (targetPath N root request))
    · have hway : wayOf N root fs request.recursive maxRecursionDepth loc = .followed := by
        by_contra hway
        exact h ⟨hbase, hway⟩
      have hloc : entryLoc N (segNames (targetPath N root request)) ([] ++ [name]) = loc := by
        rw [resolved_eq hann.relative hann.resolved hbase]
        simp [entryLoc]
      have hwalk := @sendEntry_walks _ _ N times root request fs _ maxRecursionDepth loc name []
        hplain hann.inside hloc
      rw [hway] at hwalk
      rcases hwalk with ⟨b, hwalk⟩
      exact ⟨b + 0, hwalk 0⟩
    · have hbad : ¬Direct N root request fs ([] ++ [name]) := by
        simpa [Direct, entryLoc] using hbase
      exact ⟨timesAcks request.preserveTimes + 0,
        sendEntry_passes hplain hann.inside hann.announces hbad⟩
  rcases hentry with ⟨b, hentry⟩
  -- the acknowledgement of the start and those of the entry
  refine ⟨1 + b, ?_⟩
  refine (require_pos hann.relative).bind fun _ => (observe_told hann.resolved).bind_eq ?_
  refine (require_pos hann.inside).bind fun _ => (observe_told hlookup).bind_eq ?_
  refine (require_pos hobj).bind fun _ => (orReject_some hname).bind_eq ?_
  exact (require_pos hvalid).bind fun _ => expectAck_told.bind fun _ => hentry

end Law

/-- Where the path that is asked for is a link or a link stands below it: on every system and
channel and for every peer the source fails, and every entry it has named in a record is reached
without a link, if and only if it follows none. -/
theorem send_source_follows_no_link_iff (N : OsNames ν) (times : Loc ν → UInt64 × UInt64)
    {root : Loc ν} {request : ScpRequest} {fs : Fs ν} (hlink : HasLink N root request fs) :
    (∀ (wire : ScpWire) (fault : Nat → Option Fault), wire.sent = [] →
      (∃ error w, sendSource N times root request ⟨wire, { fs, fault }⟩ = .error error w) ∧
      ∀ path ∈ announced 0 []
          (finalWorld (sendSource N times root request ⟨wire, { fs, fault }⟩)).wire.sent,
        Direct N root request fs path) ↔
      FollowsNoLink N root request fs := by
  constructor
  · -- a peer with enough acknowledgements gets a path through a link
    intro hruns loc hann
    by_contra hfollows
    rcases sendSource_passes times hann hfollows with ⟨k, hpasses⟩
    have hstart : Told fs 0 []
        k ⟨{ events := [.data (List.replicate k 0)] }, { fs }⟩ :=
      ⟨⟨rfl, fun _ => rfl⟩, fun _ => rfl, by simp [ScpWire.remaining, streamBytes], spoken_nil⟩
    rcases finalWorld_of_triple hpasses hstart with ⟨path, hpath, hbad⟩
    exact hbad ((hruns _ _ rfl).2 path hpath)
  · -- whatever fails, only direct paths are announced, and the end is not reached
    intro hfollows wire fault hfresh
    have hstart : Telling fs (Direct N root request fs) 0 [] ⟨wire, { fs, fault }⟩ := by
      refine ⟨rfl, ?_⟩
      rw [hfresh]
      exact spoken_nil
    have hrun := sendSource_direct times hlink hfollows _ hstart
    cases hresult : sendSource N times root request ⟨wire, { fs, fault }⟩ with
    | ok value w =>
        rw [hresult] at hrun
        exact hrun.elim
    | error error w =>
        rw [hresult] at hrun
        exact ⟨⟨error, w, rfl⟩, hrun⟩

/-- A root with a file `f` and a link `l` that leads to it, and with a directory `d` in which a
link leads out of the root. -/
def linkedSource : Fs (List Char) :=
  ⟨[([['r']], .dir 0o755), ([['r'], ['f']], .file 0),
    ([['r'], ['l']], .link ⟨false, [.name ['f']]⟩), ([['r'], ['d']], .dir 0o755),
    ([['r'], ['d'], ['a']], .file 0),
    ([['r'], ['d'], ['o']], .link ⟨true, []⟩)], fun _ => ⟨[120], 0o644⟩, 1⟩

/-- The directory is sent up to the link that leads out of the root. -/
theorem send_source_stops_at_outer_link :
    HasLink textNames [['r']] { recursive := true, target := ['d'] } linkedSource ∧
    ∀ (wire : ScpWire) (fault : Nat → Option Fault), wire.sent = [] →
      (∃ error w, sendSource textNames (fun _ => (0, 0)) [['r']]
        { recursive := true, target := ['d'] } ⟨wire, { fs := linkedSource, fault }⟩ =
          .error error w) ∧
      ∀ path ∈ announced 0 [] (finalWorld (sendSource textNames (fun _ => (0, 0)) [['r']]
          { recursive := true, target := ['d'] }
          ⟨wire, { fs := linkedSource, fault }⟩)).wire.sent,
        Direct textNames [['r']] { recursive := true, target := ['d'] } linkedSource path := by
  have hsolid : linkedSource.Solid [['r'], ['d']] :=
    Fs.solid_concat.mpr ⟨Fs.solid_concat.mpr ⟨Fs.solid_nil, 0o755, rfl⟩, 0o755, rfl⟩
  -- the link leads out of the root, so it is not followed
  have hlink : HasLink textNames [['r']] { recursive := true, target := ['d'] } linkedSource :=
    .inr ⟨[['r'], ['d']], [['r'], ['d']], ['o'], ⟨true, []⟩, rfl, List.prefix_refl _, hsolid, rfl⟩
  refine ⟨hlink, (send_source_follows_no_link_iff textNames (fun _ => (0, 0)) hlink).mpr ?_⟩
  intro loc hann
  have hloc : loc = [['r'], ['d']] := (Except.ok.inj hann.resolved).symm
  subst hloc
  exact ⟨hsolid.plain, by decide +kernel⟩

/-- The link `l` is followed, and the file behind it is sent. -/
theorem inner_link_is_followed :
    HasLink textNames [['r']] { target := ['l'] } linkedSource ∧
    isOk (sendSource textNames (fun _ => (0, 0)) [['r']] { target := ['l'] }
      ⟨{ events := [.data [0, 0, 0]] }, { fs := linkedSource }⟩) = true ∧
    [['f']] ∈ announced 0 [] (finalWorld (sendSource textNames (fun _ => (0, 0)) [['r']]
      { target := ['l'] } ⟨{ events := [.data [0, 0, 0]] }, { fs := linkedSource }⟩)).wire.sent ∧
    ¬Direct textNames [['r']] { target := ['l'] } linkedSource [['f']] := by
  refine ⟨.inl ⟨[['r'], ['l']], ⟨false, [.name ['f']]⟩, by decide +kernel⟩, by decide +kernel,
    by decide +kernel, ?_⟩
  intro hdirect
  exact hdirect.2 ⟨false, [.name ['f']]⟩ rfl

end Rssh.Scp
