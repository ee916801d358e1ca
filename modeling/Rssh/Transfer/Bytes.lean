import Rssh.Transfer.Requests

/-!
# Reading and writing an open file

Reads and writes on one handle, compared with a sequence of bytes: a write replaces the bytes from
its offset on, a read returns those that are there, and the end of the file is answered where the
bytes end.

* `reference` is that sequence, and `Follows` says that a run of requests answers as it does. A
  write that the system ends early leaves what it has stored by then in the sequence too.
* `io_accepted` and `io_refused` are one request; the session differs from the reference in a read
  of no bytes before the end, which it answers with the end of the file. A write of no bytes
  behind the end does not extend the file.
* `io_follows_reference_iff`: a run follows the reference when it has no such request.
-/

namespace Rssh.Sftp

open Posix

/-! ## The reference -/

/-- A request on an open file. -/
inductive IoRequest where
  | read (id : UInt32) (offset : UInt64) (len : UInt32)
  | write (id : UInt32) (offset : UInt64) (data : List UInt8)
deriving DecidableEq, Repr

namespace IoRequest

def request (token : List Char) : IoRequest → Request
  | read id offset len => .read id token offset len
  | write id offset data => .write id token offset data

def offset : IoRequest → Nat
  | read _ offset _ => offset.toNat
  | write _ offset _ => offset.toNat

/-- The calls that it takes: `lseek`, and `read` or `write` unless there is nothing to write. -/
def calls : IoRequest → Nat
  | read _ _ _ => 2
  | write _ _ data => if data = [] then 1 else 2

end IoRequest

/-- What a sequence of bytes answers, and what becomes of it. A write of no bytes behind the end
may be one that fills up to its offset, or one that does nothing. -/
def reference (fills : Bool) (content : List UInt8) :
    IoRequest → Except StatusCode Reply × List UInt8
  | .read id offset len =>
      (if content.length ≤ offset.toNat then .error .eof
        else .ok (.data id ((content.drop offset.toNat).take (min len.toNat maxIoSize))), content)
  | .write id offset data =>
      if data.length ≤ maxIoSize then
        (.ok (okStatus id),
          if data = [] ∧ fills = false then content else overwrite content offset.toNat data)
      else (.error .failure, content)

/-- The system accepts the offset and does the calls of the request. -/
def Accepts {ν : Type} (os : Os ν) (r : IoRequest) : Prop :=
  r.offset ≤ maxOffset ∧ ∀ k < r.calls, os.fault (os.calls + k) = none

/-- What is stored of a request that the system does not accept: a first part of what should be
written, if it gets as far as writing. -/
def storedPart {ν : Type} (os : Os ν) : IoRequest → List UInt8
  | .read _ _ _ => []
  | .write _ offset data =>
      if data.length ≤ maxIoSize ∧ os.fault os.calls = none ∧ offset.toNat ≤ maxOffset then
        data.dropLast.take (os.stored (os.calls + 1))
      else []

/-- What becomes of the bytes with a request that the system does not accept. -/
def tornReference {ν : Type} (os : Os ν) (content : List UInt8) (r : IoRequest) : List UInt8 :=
  if storedPart os r = [] then content else overwrite content r.offset (storedPart os r)

/-- An error that is not the end of the file. -/
def Refused (answer : Except StatusCode Reply) : Prop :=
  ∃ code, answer = .error code ∧ code ≠ .eof

variable {ν : Type}

def answerOf {α : Type} : EStateM.Result StatusCode (Server ν) α → Except StatusCode α
  | .ok value _ => .ok value
  | .error code _ => .error code

/-- The bytes of a file. -/
def contentOf (ino : Nat) (s : Server ν) : List UInt8 := (s.os.fs.inode ino).data

/-- The handle is one of this file, open to read and to write but not to append. -/
def Opened (token : List Char) (ino : Nat) (s : Server ν) : Prop :=
  ∃ loc options, s.session.handles token = some (.file ⟨loc, .file ino, options⟩) ∧
    options.read = true ∧ options.write = true ∧ options.append = false

variable [DecidableEq ν]

/-- The requests are answered as by the reference with these bytes, and the file has its bytes
before and after each of them. What the system refuses is answered with an error, and of a write
that fails in its course the file and the reference have the same first part. -/
def Follows (E : Env ν) (root : Loc ν) (token : List Char) (ino : Nat) (fills : Bool) :
    Server ν → List UInt8 → List IoRequest → Prop
  | s, content, [] => contentOf ino s = content
  | s, content, r :: rs =>
      contentOf ino s = content ∧
      (Accepts s.os r →
        answerOf (handle E root (r.request token) s) = (reference fills content r).1 ∧
        Follows E root token ino fills (afterRequest (handle E root (r.request token) s))
          (reference fills content r).2 rs) ∧
      (¬ Accepts s.os r →
        Refused (answerOf (handle E root (r.request token) s)) ∧
        Follows E root token ino fills (afterRequest (handle E root (r.request token) s))
          (tornReference s.os content r) rs)

/-- The requests on one handle. -/
def ioMachine (E : Env ν) (root : Loc ν) (token : List Char) : Machine (Server ν) IoRequest where
  step s r := some (afterRequest (handle E root (r.request token) s))

/-- No read of no bytes before the end, and no write of no bytes behind it that should fill. -/
def Ordinary (fills : Bool) (content : List UInt8) : IoRequest → Prop
  | .read _ offset len => len = 0 → content.length ≤ offset.toNat
  | .write _ offset data => data = [] → fills = true → offset.toNat ≤ content.length

/-! ## One request -/

section Requests

variable {token : List Char} {ino : Nat} {s : Server ν} {fills : Bool}

omit [DecidableEq ν] in
theorem mapIoStatus_ne_eof (errno : Errno) : mapIoStatus errno ≠ .eof := by
  cases errno <;> decide

omit [DecidableEq ν] in
/-- The token of an open file gives its handle. -/
theorem fileHandle_opened {file : OpenFile ν} (h : s.session.handles token = some (.file file)) :
    fileHandle token s = .ok file s := by
  refine (bind_of_ok (x := getSession) (s := s) rfl).trans ?_
  simp only [h]
  rfl

omit [DecidableEq ν] in
/-- The seek in front of a read or a write. -/
theorem seek_accepted {r : IoRequest} (h : Accepts s.os r) :
    call (seek r.offset) s = .ok () s.looked := by
  have hcalm : s.os.fault s.os.calls = none := by
    refine h.2 0 ?_
    cases r with
    | read id offset len => simp [IoRequest.calls]
    | write id offset data =>
        simp only [IoRequest.calls]
        split <;> omega
  refine call_of_ok (observe_eq_ok_iff.mpr ⟨hcalm, ?_, rfl⟩)
  rw [if_pos h.1]

omit [DecidableEq ν] in
/-- What a read does when the system does its calls. -/
theorem read_accepted {loc : Loc ν} {options : OpenOptions}
    (hhandle : s.session.handles token = some (.file ⟨loc, .file ino, options⟩))
    (hread : options.read = true) {id : UInt32} {offset : UInt64} {len : UInt32}
    (haccepts : Accepts s.os (.read id offset len)) :
    let data := ((contentOf ino s).drop offset.toNat).take (min len.toNat maxIoSize)
    ∃ s', read id token offset len s =
        (if data = [] then .error .eof s' else .ok (.data id data) s') ∧
      s'.session = s.session ∧ contentOf ino s' = contentOf ino s := by
  intro data
  have hcalm : s.looked.os.fault s.looked.os.calls = none :=
    haccepts.2 1 (by simp [IoRequest.calls])
  have hseek : call (seek offset.toNat) s = .ok () s.looked := seek_accepted haccepts
  have heffect : (s.looked.os.fs.readAt ⟨loc, .file ino, options⟩ offset.toNat
      (min len.toNat maxIoSize)).1 = .ok (data, s.looked.os.fs) := by
    simp [Fs.readAt, hread, data, contentOf, Server.looked, Os.after]
  obtain ⟨s', hcall, hsession, hcontent⟩ : ∃ s', call (syscall fun fs => fs.readAt
        ⟨loc, .file ino, options⟩ offset.toNat (min len.toNat maxIoSize)) s.looked = .ok data s' ∧
      s'.session = s.session ∧ contentOf ino s' = contentOf ino s :=
    ⟨_, call_of_ok (syscall_of_ok hcalm heffect), rfl, rfl⟩
  refine ⟨s', ?_, hsession, hcontent⟩
  unfold read
  rw [bind_of_ok (fileHandle_opened hhandle), bind_of_ok hseek, bind_of_ok hcall]
  -- the end of the file is answered as such
  by_cases hdata : data = []
  · rw [if_pos hdata, hdata]
    rfl
  · rw [if_neg hdata]
    exact bind_of_ok (a := ()) (ensure_eq_ok_iff.mpr ⟨hdata, rfl⟩)

omit [DecidableEq ν] in
/-- What a write of something does when the system does its calls. -/
theorem write_accepted {loc : Loc ν} {options : OpenOptions}
    (hhandle : s.session.handles token = some (.file ⟨loc, .file ino, options⟩))
    (hwrite : options.write = true) (happend : options.append = false) {id : UInt32}
    {offset : UInt64} {data : List UInt8} (hsize : data.length ≤ maxIoSize)
    (haccepts : Accepts s.os (.write id offset data)) :
    ∃ s', write id token offset data s = .ok (okStatus id) s' ∧ s'.session = s.session ∧
      contentOf ino s' = if data = [] then contentOf ino s
        else overwrite (contentOf ino s) offset.toNat data := by
  have hseek : call (seek offset.toNat) s = .ok () s.looked := seek_accepted haccepts
  unfold write
  rw [bind_of_ok (a := ()) (ensure_eq_ok_iff.mpr ⟨hsize, rfl⟩),
    bind_of_ok (fileHandle_opened hhandle), bind_of_ok hseek]
  -- for an empty write the source makes no call
  by_cases hdata : data = []
  · simp only [hdata, ne_eq, not_true_eq_false, if_false, if_true]
    exact ⟨s.looked, rfl, rfl, rfl⟩
  · have hcalm : s.looked.os.fault s.looked.os.calls = none :=
      haccepts.2 1 (by simp [IoRequest.calls, hdata])
    have heffect : (s.looked.os.fs.writeAt ⟨loc, .file ino, options⟩ offset.toNat data).1 =
        .ok ((), s.os.fs.setInode ino { s.os.fs.inode ino with
          data := overwrite (contentOf ino s) offset.toNat data }) := by
      simp [Fs.writeAt, OpenOptions.writes, hwrite, happend, contentOf, Server.looked, Os.after]
    have hcall : call (writeAll ⟨loc, .file ino, options⟩ offset.toNat data) s.looked = _ :=
      call_of_ok ((writeAll_of_calm hcalm).trans (syscall_of_ok hcalm heffect))
    simp only [ne_eq, hdata, not_false_eq_true, if_true, if_false]
    refine ⟨_, (bind_of_ok hcall).trans rfl, rfl, ?_⟩
    simp [contentOf, Os.after, Fs.setInode]

omit [DecidableEq ν] in
/-- The bytes of the file behind a `write_all` that has failed. -/
theorem writtenBefore_content (fs : Fs ν) {loc : Loc ν} {options : OpenOptions}
    (hwrite : options.write = true) (happend : options.append = false) {offset : Nat}
    {bytes : List UInt8} {stored : Nat} :
    ((fs.writtenBefore ⟨loc, .file ino, options⟩ offset bytes stored).inode ino).data =
      if bytes.dropLast.take stored = [] then (fs.inode ino).data
      else overwrite (fs.inode ino).data offset (bytes.dropLast.take stored) := by
  unfold Fs.writtenBefore
  dsimp only
  split
  · rfl
  · simp [Fs.writeAt, OpenOptions.writes, hwrite, happend, Fs.setInode]

omit [DecidableEq ν] in
/-- What is not accepted fails at the seek, or at the call behind it. -/
theorem not_accepts_cases {r : IoRequest} (h : ¬ Accepts s.os r) :
    (¬ (s.os.fault s.os.calls = none ∧ r.offset ≤ maxOffset) ∧
      ∃ errno, call (seek r.offset) s = .error (mapIoStatus errno) s.looked) ∨
    (s.os.fault s.os.calls = none ∧ r.offset ≤ maxOffset) ∧
      call (seek r.offset) s = .ok () s.looked ∧ r.calls = 2 ∧
        ∃ fault, s.looked.os.fault s.looked.os.calls = some fault := by
  -- the seek fails, or the call behind it
  by_cases hseek : s.os.fault s.os.calls = none ∧ r.offset ≤ maxOffset
  · refine .inr ⟨hseek, ?_⟩
    obtain ⟨hcalm, hoffset⟩ := hseek
    refine ⟨call_of_ok (observe_eq_ok_iff.mpr ⟨hcalm, if_pos hoffset, rfl⟩), ?_⟩
    have hcalls : ¬ ∀ k < r.calls, s.os.fault (s.os.calls + k) = none := fun hall =>
      h ⟨hoffset, hall⟩
    push Not at hcalls
    obtain ⟨k, hk, hfault⟩ := hcalls
    have hle : r.calls ≤ 2 := by
      cases r with
      | read id offset len => rfl
      | write id offset data =>
          simp only [IoRequest.calls]
          split <;> omega
    have hk0 : k ≠ 0 := by
      rintro rfl
      exact hfault hcalm
    obtain rfl : k = 1 := by omega
    exact ⟨by omega, Option.ne_none_iff_exists'.mp hfault⟩
  · refine .inl ⟨hseek, ?_⟩
    have hfails : s.os.fault s.os.calls ≠ none ∨ ∃ errno : Errno,
        (if r.offset ≤ maxOffset then .ok () else .error .invalid : Except Errno Unit) =
          .error errno := by
      by_cases hcalm : s.os.fault s.os.calls = none
      · right
        have hoffset : ¬ r.offset ≤ maxOffset := fun hoffset => hseek ⟨hcalm, hoffset⟩
        exact ⟨.invalid, if_neg hoffset⟩
      · exact .inl hcalm
    obtain ⟨errno, herror⟩ : ∃ errno, seek r.offset s.os = .error errno _ := observe_fails hfails
    exact ⟨errno, call_of_error herror⟩

omit [DecidableEq ν] in
/-- A read that the system does not accept leaves the bytes. -/
theorem read_refused {loc : Loc ν} {options : OpenOptions}
    (hhandle : s.session.handles token = some (.file ⟨loc, .file ino, options⟩)) {id : UInt32}
    {offset : UInt64} {len : UInt32} (h : ¬ Accepts s.os (.read id offset len)) :
    ∃ code s', read id token offset len s = .error code s' ∧ code ≠ .eof ∧
      s'.session = s.session ∧ contentOf ino s' = contentOf ino s := by
  unfold read
  rw [bind_of_ok (fileHandle_opened hhandle)]
  rcases not_accepts_cases h with ⟨-, errno, hseek⟩ | ⟨-, hseek, -, fault, hfault⟩
  · exact ⟨_, _, bind_of_error hseek, mapIoStatus_ne_eof errno, rfl, rfl⟩
  · change call (seek offset.toNat) s = _ at hseek
    have hfails : s.looked.os.fault s.looked.os.calls ≠ none := by
      rw [hfault]
      nofun
    obtain ⟨errno, herror⟩ : ∃ errno, syscall (fun fs => fs.readAt ⟨loc, .file ino, options⟩
        offset.toNat (min len.toNat maxIoSize)) s.looked.os = .error errno _ :=
      syscall_fails (.inl hfails)
    rw [bind_of_ok hseek]
    exact ⟨_, _, bind_of_error (call_of_error herror), mapIoStatus_ne_eof errno, rfl, rfl⟩

omit [DecidableEq ν] in
/-- A write that the system does not accept leaves the bytes, or has stored a first part of its
own. -/
theorem write_refused {loc : Loc ν} {options : OpenOptions}
    (hhandle : s.session.handles token = some (.file ⟨loc, .file ino, options⟩))
    (hwrite : options.write = true) (happend : options.append = false) {id : UInt32}
    {offset : UInt64} {data : List UInt8} (h : ¬ Accepts s.os (.write id offset data)) :
    ∃ code s', write id token offset data s = .error code s' ∧ code ≠ .eof ∧
      s'.session = s.session ∧
      contentOf ino s' = tornReference s.os (contentOf ino s) (.write id offset data) := by
  have hnothing : ¬ (data.length ≤ maxIoSize ∧ s.os.fault s.os.calls = none ∧
        offset.toNat ≤ maxOffset) →
      tornReference s.os (contentOf ino s) (.write id offset data) = contentOf ino s := fun hnot =>
    if_pos (if_neg hnot)
  unfold write
  by_cases hsize : data.length ≤ maxIoSize
  · rw [bind_of_ok (a := ()) (ensure_eq_ok_iff.mpr ⟨hsize, rfl⟩),
      bind_of_ok (fileHandle_opened hhandle)]
    rcases not_accepts_cases h with ⟨hnot, errno, hseek⟩ | ⟨hoffset, hseek, hcalls, fault, hfault⟩
    · -- it fails before it writes
      exact ⟨_, _, bind_of_error hseek, mapIoStatus_ne_eof errno, rfl,
        (hnothing fun hall => hnot hall.2).symm⟩
    · change call (seek offset.toNat) s = _ at hseek
      have hdata : data ≠ [] := by
        rintro rfl
        cases hcalls
      have hfails : call (writeAll ⟨loc, .file ino, options⟩ offset.toNat data) s.looked = _ :=
        call_of_error (writeAll_of_fault hfault)
      -- what is stored is the part that the fault lets through
      have hpart : storedPart s.os (.write id offset data) =
          data.dropLast.take (s.os.stored (s.os.calls + 1)) := if_pos ⟨hsize, hoffset⟩
      rw [bind_of_ok hseek, if_pos hdata, tornReference, hpart]
      exact ⟨_, _, bind_of_error hfails, mapIoStatus_ne_eof _, rfl,
        writtenBefore_content s.os.fs hwrite happend⟩
  · have hfails : (ensure (data.length ≤ maxIoSize) .failure : SftpM ν Unit) s =
        .error .failure s := by
      rw [ensure, if_neg hsize]
      rfl
    exact ⟨_, _, bind_of_error hfails, by decide, rfl, (hnothing fun hall => hsize hall.1).symm⟩

/-- A request that the system does not accept fails, with another error than the end of the file. -/
theorem io_refused {E : Env ν} {root : Loc ν} {r : IoRequest} (hopened : Opened token ino s)
    (h : ¬ Accepts s.os r) :
    ∃ code s', handle E root (r.request token) s = .error code s' ∧ code ≠ .eof ∧
      s'.session = s.session ∧
      contentOf ino s' = tornReference s.os (contentOf ino s) r := by
  obtain ⟨loc, options, hhandle, -, hwrite, happend⟩ := hopened
  cases r with
  | read id offset len => exact read_refused hhandle h
  | write id offset data => exact write_refused hhandle hwrite happend h

/-- A read of an accepted offset answers as the reference, unless it asks for nothing before the
end. -/
theorem read_reference_iff {content : List UInt8} {id : UInt32} {offset : UInt64} {len : UInt32} :
    let data := (content.drop offset.toNat).take (min len.toNat maxIoSize)
    (if data = [] then .error .eof else .ok (.data id data) : Except StatusCode Reply) =
        (reference fills content (.read id offset len)).1 ↔
      Ordinary fills content (.read id offset len) := by
  intro data
  have hdata : data = [] ↔ len = 0 ∨ content.length ≤ offset.toNat := by
    have hlen : len = 0 ↔ len.toNat = 0 := by rw [← UInt32.toNat_inj]; rfl
    simp only [data, List.take_eq_nil_iff, List.drop_eq_nil_iff, hlen, maxIoSize]
    omega
  simp only [reference, Ordinary]
  by_cases hend : content.length ≤ offset.toNat
  · simp [hdata, hend]
  · by_cases hzero : len = 0
    · simp [hdata, hend, hzero]
    · simp [hdata, hend, hzero, data]

/-- A request that the system accepts is answered as by the reference when it is an ordinary
one. -/
theorem io_accepted {E : Env ν} {root : Loc ν} {r : IoRequest} (hopened : Opened token ino s)
    (h : Accepts s.os r) :
    let result := handle E root (r.request token) s
    (afterRequest result).session = s.session ∧
      (answerOf result = (reference fills (contentOf ino s) r).1 ∧
        contentOf ino (afterRequest result) = (reference fills (contentOf ino s) r).2 ↔
          Ordinary fills (contentOf ino s) r) := by
  obtain ⟨loc, options, hhandle, hread, hwrite, happend⟩ := hopened
  intro result
  cases r with
  | read id offset len =>
      obtain ⟨s', hrun, hsession, hcontent⟩ := read_accepted hhandle hread h
      have hresult : result = _ := hrun
      have hanswer : answerOf result = _ :=
        (congrArg answerOf hresult).trans (apply_ite answerOf _ _ _)
      have hafter : afterRequest result = s' := by
        rw [hresult]
        split <;> rfl
      rw [hafter, hanswer]
      exact ⟨hsession, (and_iff_left hcontent).trans read_reference_iff⟩
  | write id offset data =>
      -- the size is checked before the seek
      by_cases hsize : data.length ≤ maxIoSize
      · obtain ⟨s', hrun, hsession, hcontent⟩ :=
          write_accepted hhandle hwrite happend hsize h
        have hresult : result = .ok (okStatus id) s' := hrun
        rw [hresult]
        refine ⟨hsession, ?_⟩
        simp only [answerOf, afterRequest, reference, hsize, if_true, true_and, hcontent, Ordinary]
        by_cases hdata : data = []
        · subst hdata
          cases fills with
          | false => simp
          | true => simpa [eq_comm] using overwrite_nil_eq_iff
        · simp [hdata]
      · have hfails : (ensure (data.length ≤ maxIoSize) .failure : SftpM ν Unit) s =
            .error .failure s := by
          rw [ensure, if_neg hsize]
          rfl
        have hresult : result = .error .failure s := bind_of_error hfails
        have hdata : data ≠ [] := by
          rintro rfl
          exact hsize (Nat.zero_le _)
        rw [hresult]
        simp [answerOf, afterRequest, reference, hsize, Ordinary, hdata]

/-! ## Runs -/

/-- A run that follows the reference begins with the same bytes. -/
theorem Follows.content_eq {E : Env ν} {root : Loc ν} {content : List UInt8}
    {requests : List IoRequest} (h : Follows E root token ino fills s content requests) :
    contentOf ino s = content := by
  cases requests with
  | nil => exact h
  | cons r rs => exact h.1

omit [DecidableEq ν] in
theorem Opened.of_session {s' : Server ν} (h : Opened token ino s)
    (hsession : s'.session = s.session) : Opened token ino s' := by
  unfold Opened
  rw [hsession]
  exact h

end Requests

/-- Reads and writes on an open file answer as a sequence of bytes does, and the file has these
bytes, along a run in which no request that the system accepts reads nothing before the end, and
along no other run. Where a write of nothing behind the end should fill up to its offset, there
must be no such write either. -/
theorem io_follows_reference_iff (E : Env ν) (root : Loc ν) {token : List Char} {ino : Nat}
    {s : Server ν} (hopened : Opened token ino s) (fills : Bool) (requests : List IoRequest) :
    Follows E root token ino fills s (contentOf ino s) requests ↔
      (ioMachine E root token).AllSteps
        (fun t r => Accepts t.os r → Ordinary fills (contentOf ino t) r) s requests := by
  induction requests generalizing s with
  | nil => exact ⟨fun _ => trivial, fun _ => rfl⟩
  | cons r rs ih =>
      have hnext : ∀ s', (ioMachine E root token).step s r = some s' →
          afterRequest (handle E root (r.request token) s) = s' := fun s' hstep =>
        Option.some.inj hstep
      by_cases haccepts : Accepts s.os r
      · obtain ⟨hsession, hagrees⟩ := @io_accepted ν _ token ino s fills E root r hopened haccepts
        -- the first request decides about its answer, and the rest about the others
        have hrest := ih (hopened.of_session hsession)
        constructor
        · rintro ⟨-, haccepted, -⟩
          obtain ⟨hanswer, hfollows⟩ := haccepted haccepts
          have hcontent := hfollows.content_eq
          refine ⟨fun _ => hagrees.mp ⟨hanswer, hcontent⟩, ?_⟩
          intro s' hstep
          rw [← hcontent] at hfollows
          exact hnext s' hstep ▸ hrest.mp hfollows
        · rintro ⟨hordinary, hsteps⟩
          obtain ⟨hanswer, hcontent⟩ := hagrees.mpr (hordinary haccepts)
          refine ⟨rfl, fun _ => ⟨hanswer, ?_⟩, fun hnot => absurd haccepts hnot⟩
          rw [← hcontent]
          exact hrest.mpr (hsteps _ rfl)
      · obtain ⟨code, s', hrun, hcode, hsession, hcontent⟩ :=
          @io_refused ν _ token ino s E root r hopened haccepts
        have hrest := ih (hopened.of_session hsession)
        constructor
        · rintro ⟨-, -, hrefused⟩
          obtain ⟨-, hfollows⟩ := hrefused haccepts
          refine ⟨fun hnot => absurd hnot haccepts, ?_⟩
          intro t hstep
          rw [hrun] at hfollows
          obtain rfl : s' = t := by simpa [hrun, afterRequest] using hnext t hstep
          rw [← hcontent] at hfollows
          exact hrest.mp hfollows
        · rintro ⟨-, hsteps⟩
          refine ⟨rfl, fun hnot => absurd hnot haccepts, fun _ => ?_⟩
          have hafter := hsteps _ rfl
          rw [hrun] at hafter ⊢
          refine ⟨⟨code, rfl, hcode⟩, ?_⟩
          rw [← hcontent]
          exact hrest.mpr hafter

/-! ## A file of one byte -/

/-- In the root `r` a file `f`. -/
def byteRoot : Fs (List Char) where
  entries := [([['r']], .dir 0o755), ([['r'], ['f']], .file 0)]
  inode _ := { data := [7], mode := 0o644 }
  nextIno := 1

/-- The session that has opened it to read and to write, with its first handle. -/
def byteServer : Server (List Char) :=
  afterRequest (handle textEnv [['r']] (.open_ 1 ['f'] { read := true, write := true } {})
    { os := { fs := byteRoot } })

theorem byteServer_opened : Opened "fixture-0".toList 0 byteServer :=
  ⟨[['r'], ['f']], { read := true, write := true }, by decide +kernel, rfl, rfl, rfl⟩

/-- The same with a system that ends the next write after one byte. -/
def fullServer : Server (List Char) :=
  { byteServer with
    os := { byteServer.os with
      fault n := if n = byteServer.os.calls + 1 then some .other else none
      stored _ := 1 } }

theorem fullServer_opened : Opened "fixture-0".toList 0 fullServer := byteServer_opened

/-- A write behind the end that fails with its first byte stored, and a read over the gap. -/
theorem io_follows_reference_fullServer :
    Follows textEnv [['r']] "fixture-0".toList 0 true fullServer (contentOf 0 fullServer)
        [.write 2 3 [8, 9], .read 3 0 8] ∧
      ¬ Accepts fullServer.os (.write 2 3 [8, 9]) ∧
      tornReference fullServer.os (contentOf 0 fullServer) (.write 2 3 [8, 9]) = [7, 0, 0, 8] := by
  refine ⟨(io_follows_reference_iff textEnv [['r']] fullServer_opened true _).mpr ?_, ?_, ?_⟩
  · refine ⟨fun _ hdata => absurd hdata (by decide), fun s hs => ?_⟩
    exact ⟨fun _ hlen => absurd hlen (by decide), fun _ _ => trivial⟩
  · rintro ⟨-, hcalm⟩
    have hfault : fullServer.os.fault (fullServer.os.calls + 1) = some .other := by
      simp [fullServer]
    cases hfault.symm.trans (hcalm 1 (by decide))
  · decide +kernel

/-- A read of no bytes at the start of the file is answered with its end. -/
theorem empty_read_is_answered_with_eof :
    Accepts byteServer.os (.read 2 0 0) ∧ (contentOf 0 byteServer).length = 1 ∧
      answerOf (handle textEnv [['r']] (.read 2 "fixture-0".toList 0 0) byteServer) =
        .error .eof ∧
      ∀ fills, ¬ Follows textEnv [['r']] "fixture-0".toList 0 fills byteServer
        (contentOf 0 byteServer) [.read 2 0 0] := by
  have haccepts : Accepts byteServer.os (.read 2 0 0) := ⟨by decide, fun _ _ => rfl⟩
  have hanswer : answerOf (handle textEnv [['r']] (.read 2 "fixture-0".toList 0 0) byteServer) =
      .error .eof := by
    decide +kernel
  refine ⟨haccepts, by decide +kernel, hanswer, ?_⟩
  rintro fills ⟨-, haccepted, -⟩
  have hreference := (haccepted haccepts).1.symm.trans hanswer
  revert hreference
  cases fills <;> decide +kernel

end Rssh.Sftp
