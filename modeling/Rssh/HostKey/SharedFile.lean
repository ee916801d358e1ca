import Mathlib.Data.Fintype.Basic
import Rssh.HostKey.FirstUse
import Rssh.HostKey.LearnRace

/-!
# Handlers that share a known-hosts file

Trust-on-first-use handlers that connect to one endpoint at the same time. Inside one
`check_server_key`, russh's read, the scan for plain names, the newline probe of `learn` and each
of its appends are separate steps on the shared file, and nothing locks it.

* `sharedFile` is the machine of all interleavings; the steps of `learn` are those of `learnRace`.
  `check_runs` shows that one handler running alone does what `check_server_key` does.
* `first_use_accepts_two_keys`: handlers that overlap accept different keys, also when only the
  records of one key are mixed up by the overlap.
* `accepted_keys_agree`: when no handler finds the endpoint unknown while another one has found it
  unknown and is not done with its record, all accepted keys are equal.
-/

namespace Rssh

variable {Key ι : Type} [DecidableEq ι]

/-! ## The machine -/

/-- Where a handler stands in its `check_server_key`. -/
inductive HandlerPhase where
  | start
  /-- russh found no key of the presented algorithm. -/
  | unmatched
  /-- The scan found nothing either; `learn` is to store the record. -/
  | unknown
  | accepted
  | refused
deriving DecidableEq, Repr

/-- The file with the calls of `learn`, and the handlers. A missing file reads like an empty one:
`check_getD`, `contains_getD`. -/
structure SharedState (ι : Type) where
  file : RaceState ι
  phase : ι → HandlerPhase

/-- The steps of the handlers: russh reads the file, the scan reads it, `learn` looks at its last
byte or makes one append. -/
inductive SharedStep (ι : Type) where
  | read (i : ι)
  | scan (i : ι)
  | learn (step : RaceStep ι)
deriving DecidableEq, Repr

def RaceStep.caller : RaceStep ι → ι
  | .probe i | .append i => i

/-- Handler `i` moves on. -/
def SharedState.move (s : SharedState ι) (i : ι) (phase : HandlerPhase) : SharedState ι :=
  { s with phase := Function.update s.phase i phase }

@[simp] theorem SharedState.move_file (s : SharedState ι) (i : ι) (phase : HandlerPhase) :
    (s.move i phase).file = s.file := rfl

@[simp] theorem SharedState.move_self (s : SharedState ι) (i : ι) (phase : HandlerPhase) :
    (s.move i phase).phase i = phase := Function.update_self ..

theorem SharedState.move_of_ne (s : SharedState ι) {i j : ι} (phase : HandlerPhase) (h : j ≠ i) :
    (s.move i phase).phase j = s.phase j := Function.update_of_ne h ..

/-- Of two moves of one handler the second counts. -/
@[simp] theorem SharedState.move_move (s : SharedState ι) (i : ι) (p q : HandlerPhase) :
    (s.move i p).move i q = s.move i q := by
  simp [SharedState.move]

/-- The phase after russh's answer. -/
def afterRead : Except KeysError Bool → HandlerPhase
  | .ok true => .accepted
  | .ok false => .unmatched
  | .error _ => .refused

/-- The phase after a step of `learn`, which ends when nothing is left to append. A key that cannot
be encoded has ended the record early. -/
def afterLearn (encoded : Except KeysError String) (left : Option (List String)) : HandlerPhase :=
  match left, encoded with
  | some [], .ok _ => .accepted
  | some [], .error _ => .refused
  | _, _ => .unknown

/-- The handlers of one endpoint, handler `i` having been presented `key i`. -/
def sharedFile (russh : RusshKeys Key) (host : String) (port : UInt16) (key : ι → Key) :
    Machine (SharedState ι) (SharedStep ι) where
  step s
    | .read i =>
        if s.phase i = .start then
          some (s.move i (afterRead
            (russh.checkKnownHostsPath (some s.file.content) host port (key i))))
        else none
    | .scan i =>
        if s.phase i = .unmatched then
          some (s.move i
            (if knownHostsContainsEndpoint (some s.file.content) host port then .refused
            else .unknown))
        else none
    | .learn l =>
        if s.phase l.caller = .unknown then
          ((learnRace russh fun i => { host, port, key := key i }).step s.file l).map fun file =>
            { s with file }.move l.caller
              (afterLearn (russh.toOpenssh (key l.caller)) (file.left l.caller))
        else none

/-- All handlers are about to read. -/
def SharedState.init (ι : Type) (content : Option ByteArray) : SharedState ι where
  file := .start content
  phase _ := .start

section Steps

variable {russh : RusshKeys Key} {host : String} {port : UInt16} {key : ι → Key}
  {s s' : SharedState ι} {i : ι}

theorem step_read (h : s.phase i = .start) :
    (sharedFile russh host port key).step s (.read i) = some (s.move i (afterRead
      (russh.checkKnownHostsPath (some s.file.content) host port (key i)))) :=
  if_pos h

theorem step_scan (h : s.phase i = .unmatched) :
    (sharedFile russh host port key).step s (.scan i) =
      some (s.move i
        (if knownHostsContainsEndpoint (some s.file.content) host port then .refused
        else .unknown)) :=
  if_pos h

/-- Everything a step can do. -/
theorem sharedFile_cases {l : SharedStep ι}
    (h : (sharedFile russh host port key).step s l = some s') :
    (∃ i, l = .read i ∧ s.phase i = .start ∧
      s' = s.move i (afterRead
        (russh.checkKnownHostsPath (some s.file.content) host port (key i)))) ∨
    (∃ i, l = .scan i ∧ s.phase i = .unmatched ∧
      s' = s.move i
        (if knownHostsContainsEndpoint (some s.file.content) host port then .refused
        else .unknown)) ∨
    (∃ l' file, l = .learn l' ∧ s.phase l'.caller = .unknown ∧
      (learnRace russh fun i => { host, port, key := key i }).step s.file l' = some file ∧
      s' = { s with file }.move l'.caller
        (afterLearn (russh.toOpenssh (key l'.caller)) (file.left l'.caller))) := by
  cases l with
  | read i =>
      by_cases hphase : s.phase i = .start
      · simp only [sharedFile, if_pos hphase, Option.some.injEq] at h
        exact .inl ⟨i, rfl, hphase, h.symm⟩
      · simp [sharedFile, hphase] at h
  | scan i =>
      by_cases hphase : s.phase i = .unmatched
      · simp only [sharedFile, if_pos hphase, Option.some.injEq] at h
        exact .inr (.inl ⟨i, rfl, hphase, h.symm⟩)
      · simp [sharedFile, hphase] at h
  | learn l' =>
      -- a step of `learn`, by a handler that has found nothing
      by_cases hphase : s.phase l'.caller = .unknown
      · simp only [sharedFile, if_pos hphase, Option.map_eq_some_iff] at h
        obtain ⟨file, hstep, rfl⟩ := h
        exact .inr (.inr ⟨l', file, rfl, hphase, hstep, rfl⟩)
      · simp [sharedFile, hphase] at h

end Steps

/-! ## One handler alone -/

section Alone

variable [DecidableEq Key] {russh : RusshKeys Key}
  {lineKey : String → UInt16 → List Char → Option (Except String Key)} {path host : String}
  {port : UInt16} {key : ι → Key} {s : SharedState ι} {i : ι}

omit [DecidableEq Key] in
/-- A call that has nothing left to append takes no more steps. -/
theorem learnRace_done {calls : ι → LearnCall Key} {file : RaceState ι} {l : RaceStep ι}
    (h : file.left l.caller = some []) : (learnRace russh calls).step file l = none := by
  cases l with
  | probe i =>
      have hleft : file.left i = some [] := h
      simp [learnRace, hleft]
  | append i =>
      have hleft : file.left i = some [] := h
      simp [learnRace, hleft]

omit [DecidableEq Key] in
/-- The steps of one `learn` call, up to its end, are those of its handler. -/
theorem run_learn {trace : List (RaceStep ι)} {file : RaceState ι}
    (hcaller : ∀ l ∈ trace, l.caller = i) (hphase : s.phase i = .unknown)
    (hstart : s.file.left i ≠ some []) (hdone : file.left i = some [])
    (hrun : (learnRace russh fun i => ⟨host, port, key i⟩).run s.file trace = some file) :
    ∃ s', (sharedFile russh host port key).run s (trace.map .learn) = some s' ∧
      s'.file = file ∧ s'.phase i = afterLearn (russh.toOpenssh (key i)) (some []) ∧
      ∀ j ≠ i, s'.phase j = s.phase j := by
  induction trace generalizing s with
  | nil =>
      obtain rfl : s.file = file := Option.some.inj hrun
      exact absurd hdone hstart
  | cons l trace ih =>
      obtain ⟨file₁, hstep, hrest⟩ := Machine.run_cons.mp hrun
      obtain rfl : l.caller = i := hcaller l List.mem_cons_self
      let t : SharedState ι := { s with file := file₁ }.move l.caller
        (afterLearn (russh.toOpenssh (key l.caller)) (file₁.left l.caller))
      have hst : (sharedFile russh host port key).step s (.learn l) = some t := by
        simp only [sharedFile, if_pos hphase, hstep, Option.map_some, t]
      have hothers : ∀ j ≠ l.caller, t.phase j = s.phase j := fun j hj =>
        SharedState.move_of_ne _ _ hj
      -- with the last append the handler has its answer
      by_cases hlast : file₁.left l.caller = some []
      · -- no step is left
        have hnil : trace = [] := by
          cases trace with
          | nil => rfl
          | cons l' trace =>
              have hcaller' : l'.caller = l.caller := hcaller l' (by simp)
              obtain ⟨file₂, hstep', -⟩ := Machine.run_cons.mp hrest
              rw [learnRace_done (by rw [hcaller', hlast])] at hstep'
              cases hstep'
        subst hnil
        obtain rfl : file₁ = file := Option.some.inj hrest
        refine ⟨t, Machine.run_cons.mpr ⟨t, hst, rfl⟩, rfl, ?_, hothers⟩
        simp only [t, SharedState.move_self, hlast]
      · have hunknown : t.phase l.caller = .unknown := by
          simp only [t, SharedState.move_self]
          rcases hleft : file₁.left l.caller with _ | _ | _
          · rfl
          · exact absurd hleft hlast
          · rfl
        obtain ⟨s', hrun', hfile, hphase', hsame⟩ :=
          ih (fun l' hl' => hcaller l' (List.mem_cons_of_mem _ hl')) hunknown hlast hrest
        refine ⟨s', Machine.run_cons.mpr ⟨t, hst, hrun'⟩, hfile, hphase', ?_⟩
        exact fun j hj => (hsame j hj).trans (hothers j hj)

theorem writePieces_calm (n : Nat) (content : ByteArray) (pieces : List String) :
    (writePieces {} n content pieces).1 = .ok () := by
  induction pieces generalizing n content with
  | nil => rfl
  | cons piece pieces ih => exact ih _ _

omit [DecidableEq Key] in
/-- Without faults, a key that can be encoded is learned. -/
theorem learn_calm {disk : Disk} {presented : Key} {openssh : String}
    (hopenssh : russh.toOpenssh presented = .ok openssh) :
    (learn russh {} disk path host port presented).1 = .ok () := by
  obtain ⟨newline, hnewline, -⟩ := needsNewline_lineBreak ((disk path).getD .empty)
  have hnames := writePieces_calm 0 ((disk path).getD .empty)
    ((if newline then ["\n"] else []) ++ endpointPieces host port)
  rcases hwritten : writePieces {} 0 ((disk path).getD .empty)
    ((if newline then ["\n"] else []) ++ endpointPieces host port) with ⟨_ | _, content⟩
  · rw [hwritten] at hnames
    cases hnames
  · simp only [learn, hnewline, hwritten, hopenssh]
    exact writePieces_calm ..

omit [DecidableEq Key] in
/-- What `check_server_key` makes of the two readers. -/
theorem check_eq {disk : Disk} {presented : Key} {openssh : String}
    (hopenssh : russh.toOpenssh presented = .ok openssh) :
    (⟨host, port, presented, none⟩ : FirstUseCall Key).check russh path disk =
      match russh.checkKnownHostsPath (disk path) host port presented with
      | .ok true => { answer := .ok true, disk }
      | .ok false =>
          if knownHostsContainsEndpoint (disk path) host port then { answer := .ok false, disk }
          else {
            answer := .ok true
            disk := (learn russh {} disk path host port presented).2 }
      | .error _ => { answer := .ok false, disk } := by
  have hlearned := @learn_calm _ russh path host port disk presented openssh hopenssh
  simp only [FirstUseCall.check, checkServerKey, handlerForHost, hostKeyStatus]
  rcases russh.checkKnownHostsPath (disk path) host port presented with (_ | message) | _ | _
  · rfl
  · rfl
  · cases knownHostsContainsEndpoint (disk path) host port with
    | true => rfl
    | false =>
        simp only [Bool.false_eq_true, if_false, decideUnknown, learnAndAccept]
        -- the key is learned and accepted, as nothing fails
        rcases hlearn : learn russh {} disk path host port presented with ⟨_ | _, disk'⟩
        · rw [hlearn] at hlearned
          cases hlearned
        · rfl
  · rfl

/-- A handler that is not disturbed does what its `check_server_key` does on the file as it is, and
leaves the other handlers alone. -/
theorem check_runs (hreads : ReadsRecords russh lineKey) (hstart : s.phase i = .start)
    (hleft : s.file.left i = none) {disk : Disk}
    (hcontent : s.file.content = (disk path).getD .empty) :
    let check := (⟨host, port, key i, none⟩ : FirstUseCall Key).check russh path disk
    ∃ trace s', (sharedFile russh host port key).run s trace = some s' ∧
      s'.file.content = (check.disk path).getD .empty ∧
      (s'.phase i = .accepted ↔ check.answer = .ok true) ∧
      ∀ j ≠ i, s'.phase j = s.phase j ∧ s'.file.left j = s.file.left j := by
  intro check
  obtain ⟨base64, hopenssh, -⟩ := hreads.encodes (key i)
  have hcheck : check = _ := check_eq hopenssh
  have hread : (sharedFile russh host port key).step s (.read i) =
      some (s.move i (afterRead (russh.checkKnownHostsPath (disk path) host port (key i)))) := by
    rw [check_getD hreads.toReadsKnownHosts, ← hcontent]
    exact step_read hstart
  have hfound : knownHostsContainsEndpoint (some s.file.content) host port =
      knownHostsContainsEndpoint (disk path) host port := by
    rw [contains_getD (disk path), hcontent]
  rcases hanswer : russh.checkKnownHostsPath (disk path) host port (key i) with error | _ | _
  · -- refused by russh
    rw [hanswer] at hcheck hread
    refine ⟨[.read i], _, Machine.run_cons.mpr ⟨_, hread, rfl⟩, ?_, ?_, ?_⟩
    · rw [hcheck]
      exact hcontent
    · simp [hcheck, afterRead]
    · exact fun j hj => ⟨SharedState.move_of_ne _ _ hj, rfl⟩
  · rw [hanswer] at hcheck hread
    have hunmatched : (s.move i .unmatched).phase i = .unmatched := SharedState.move_self ..
    have hscan : (sharedFile russh host port key).step (s.move i .unmatched) (.scan i) = _ :=
      step_scan hunmatched
    rw [SharedState.move_file, hfound, SharedState.move_move] at hscan
    have hruns : (sharedFile russh host port key).run s [.read i, .scan i] = some (s.move i
        (if knownHostsContainsEndpoint (disk path) host port then .refused else .unknown)) :=
      Machine.run_cons.mpr ⟨_, hread, Machine.run_cons.mpr ⟨_, hscan, rfl⟩⟩
    cases hnamed : knownHostsContainsEndpoint (disk path) host port with
    | true =>
        -- refused by the scan
        rw [hnamed] at hcheck hruns
        refine ⟨_, _, hruns, ?_, ?_, ?_⟩
        · rw [hcheck]
          exact hcontent
        · simp [hcheck]
        · exact fun j hj => ⟨SharedState.move_of_ne _ _ hj, rfl⟩
    | false =>
        -- learned
        rw [hnamed] at hcheck hruns
        obtain ⟨n, file, hlearn, hdone, hlefts, hstored⟩ :=
          learn_alone russh (fun i => ⟨host, port, key i⟩) hleft hcontent
        have hpending : s.file.left i ≠ some [] := by
          rw [hleft]
          nofun
        obtain ⟨s', hrun, rfl, hphase, hphases⟩ := run_learn (by simp [RaceStep.caller])
          (SharedState.move_self s i .unknown) hpending hdone hlearn
        refine ⟨_, s', Machine.run_append.mpr ⟨_, hruns, hrun⟩, ?_, ?_, ?_⟩
        · rw [hcheck]
          simp [hstored]
        · simp [hcheck, hphase, hopenssh, afterLearn]
        · intro j hj
          exact ⟨(hphases j hj).trans (SharedState.move_of_ne _ _ hj), hlefts j hj⟩
  · -- known: the first read accepts
    rw [hanswer] at hcheck hread
    refine ⟨[.read i], _, Machine.run_cons.mpr ⟨_, hread, rfl⟩, ?_, ?_, ?_⟩
    · rw [hcheck]
      exact hcontent
    · simp [hcheck, afterRead]
    · exact fun j hj => ⟨SharedState.move_of_ne _ _ hj, rfl⟩

end Alone

/-! ## A record in the making -/

/-- All appends of a call that has found this content, with the newline that ends its last line. -/
def LearnCall.appends (russh : RusshKeys Key) (call : LearnCall Key) (content : ByteArray) :
    List String :=
  (if lineBreak content = "" then [] else [lineBreak content]) ++ call.pieces russh

/-- A line that has no key yet is no entry. -/
structure SkipsPartialLines [DecidableEq Key] (russh : RusshKeys Key)
    (lineKey : String → UInt16 → List Char → Option (Except String Key)) : Prop
    extends ReadsRecords russh lineKey where
  names : ∀ host port names, ' ' ∉ names →
    lineKey host port names = none ∧ lineKey host port (names ++ [' ']) = none

section Records

variable [DecidableEq Key] {russh : RusshKeys Key}
  {lineKey : String → UInt16 → List Char → Option (Except String Key)}
  {host text : String} {port : UInt16} {call : LearnCall Key} {written rest : List String}

theorem endpointPieces_eq (host : String) (port : UInt16) :
    ∃ names, endpointPieces host port = names ++ [" "] ∧
      String.join names = endpointName host port := by
  unfold endpointPieces endpointName
  split
  · exact ⟨[host], rfl, by simp [String.join_cons]⟩
  · exact ⟨["[", host, "]:", toString port], rfl, by simp [String.join_cons, String.append_assoc]⟩

omit [DecidableEq Key] in
/-- A text of one line at most. -/
theorem entries_line {line : String} (hnewline : '\n' ∉ line.toList) {entry : Except String Key}
    (h : entry ∈ entries lineKey line host port) : lineKey host port line.toList = some entry := by
  obtain ⟨line', hline, hentry⟩ := List.mem_filterMap.mp h
  rw [Text.rawLines, List.splitOn_eq_singleton hnewline] at hline
  have hsame : line' = line.toList := by
    split at hline
    · cases hline
    · exact List.mem_singleton.mp hline
  rwa [hsame] at hentry

/-- While the names are written, the last line is no entry. -/
theorem entries_of_names (hreads : SkipsPartialLines russh lineKey) (hhost : PlainHost call.host)
    (h : written <+: endpointPieces call.host call.port) :
    entries lineKey (String.join written) host port = [] := by
  obtain ⟨names, hpieces, hnames⟩ := endpointPieces_eq call.host call.port
  rw [hpieces, List.prefix_concat_iff] at h
  have hplain : ∀ c ∈ (endpointName call.host call.port).toList, c ≠ ' ' ∧ c ≠ '\n' := by
    intro c hc
    have hblank := (mem_endpointName hhost hc).1
    constructor
    · rintro rfl
      exact absurd hblank (by decide)
    · rintro rfl
      exact absurd hblank (by decide)
  rw [List.eq_nil_iff_forall_not_mem]
  intro entry hentry
  rcases h with rfl | ⟨more, rfl⟩
  · -- all names, and the blank behind them
    have hjoin : (String.join (names ++ [" "])).toList =
        (endpointName call.host call.port).toList ++ [' '] := by
      simp [String.join_append, hnames, String.join_cons]
    have hnone := (hreads.names host port _ fun hc => (hplain ' ' hc).1 rfl).2
    have hnewline : '\n' ∉ (String.join (names ++ [" "])).toList := by
      rw [hjoin]
      simp only [List.mem_append, List.mem_singleton, not_or]
      exact ⟨fun hc => (hplain '\n' hc).2 rfl, by decide⟩
    have hline := entries_line hnewline hentry
    rw [hjoin, hnone] at hline
    cases hline
  · -- a part of the names: without the blank the line has one field only
    have hpart : ∀ c ∈ (String.join written).toList, c ≠ ' ' ∧ c ≠ '\n' := by
      intro c hc
      refine hplain c ?_
      rw [← hnames, String.join_append, String.toList_append]
      exact List.mem_append_left _ hc
    have hline := entries_line (fun hc => (hpart '\n' hc).2 rfl) hentry
    rw [(hreads.names host port _ fun hc => (hpart ' ' hc).1 rfl).1] at hline
    cases hline

/-- Whatever has been written of the record, it has no other key. -/
theorem entries_of_pieces (hreads : SkipsPartialLines russh lineKey) (hhost : PlainHost call.host)
    (h : call.pieces russh = written ++ rest) :
    ∀ entry ∈ entries lineKey (String.join written) call.host call.port, entry = .ok call.key := by
  obtain ⟨base64, hopenssh, -⟩ := hreads.encodes call.key
  generalize russh.algorithm call.key ++ " " ++ base64 = openssh at hopenssh
  have hnewline : '\n' ∉ (record call.host call.port openssh).toList :=
    newline_not_mem_record hreads.toReadsRecords hhost hopenssh
  have hread := lineKey_record_line hreads.toReadsRecords hhost hhost hopenssh call.port call.port
  have hrecord : String.join (endpointPieces call.host call.port ++ [openssh]) =
      record call.host call.port openssh := by
    simp [String.join_append, join_endpointPieces, String.join_cons, record]
  have hprefix : written <+: endpointPieces call.host call.port ++ [openssh] ++ ["\n"] := by
    refine ⟨rest, ?_⟩
    rw [← h, LearnCall.pieces, recordPieces.eq_def, hopenssh]
    simp
  rw [List.prefix_concat_iff, List.prefix_concat_iff] at hprefix
  intro entry hentry
  rcases hprefix with rfl | rfl | hnames
  · -- the whole record
    rw [String.join_append, hrecord, String.join_cons, String.join_nil, String.append_empty,
      ← withRecord_empty, entries_withRecord hreads.toReadsRecords hhost hhost hopenssh,
      if_pos ⟨rfl, rfl⟩] at hentry
    exact List.mem_singleton.mp hentry
  · -- the record without its newline
    rw [hrecord] at hentry
    have hline := entries_line hnewline hentry
    rw [hread, if_pos ⟨rfl, rfl⟩] at hline
    exact (Option.some.inj hline).symm
  · rw [entries_of_names hreads hhost hnames] at hentry
    cases hentry

/-- The same behind an old text without entries for the endpoint. -/
theorem entries_of_appends (hreads : SkipsPartialLines russh lineKey) (hhost : PlainHost call.host)
    (hunknown : entries lineKey text call.host call.port = [])
    (h : call.appends russh text.toUTF8 = written ++ rest) :
    ∀ entry ∈ entries lineKey (text ++ String.join written) call.host call.port,
      entry = .ok call.key := by
  have hbehind : ∀ more, entries lineKey (text ++ lineBreak text.toUTF8 ++ more) call.host
      call.port = entries lineKey more call.host call.port := by
    intro more
    rw [entries_append_lines, hunknown, List.nil_append]
  unfold LearnCall.appends at h
  by_cases hbreak : lineBreak text.toUTF8 = ""
  · rw [if_pos hbreak, List.nil_append] at h
    have hall := entries_of_pieces hreads hhost h
    rwa [← hbehind, hbreak, String.append_empty] at hall
  · rw [if_neg hbreak, List.singleton_append] at h
    cases written with
    | nil => simp [String.join_nil, hunknown]
    | cons first written =>
        -- the newline comes first
        obtain ⟨rfl, hpieces⟩ := List.cons.inj h
        have hall := entries_of_pieces hreads hhost hpieces
        rwa [← hbehind, String.append_assoc, ← String.join_cons] at hall

/-- With the whole record, the scan finds the endpoint. -/
theorem contains_of_appends (hreads : SkipsPartialLines russh lineKey)
    (hhost : PlainHost call.host) (hname : endpointName call.host call.port ≠ "") :
    knownHostsContainsEndpoint
      (some (text ++ String.join (call.appends russh text.toUTF8)).toUTF8) call.host call.port =
        true := by
  obtain ⟨base64, hopenssh, -⟩ := hreads.encodes call.key
  generalize russh.algorithm call.key ++ " " ++ base64 = openssh at hopenssh
  have hjoin : text ++ String.join (call.appends russh text.toUTF8) =
      text ++ lineBreak text.toUTF8 ++ withRecord "" (record call.host call.port openssh) := by
    -- the line break stands before the record
    have hbreak : String.join (if lineBreak text.toUTF8 = "" then [] else
        [lineBreak text.toUTF8]) = lineBreak text.toUTF8 := by
      split
      · rename_i hnone
        rw [hnone]
        rfl
      · simp [String.join_cons]
    rw [LearnCall.appends, String.join_append, hbreak, LearnCall.pieces, recordPieces.eq_def,
      hopenssh, withRecord_empty, String.join_append, join_endpointPieces]
    simp [String.join_cons, record, String.append_assoc]
  rw [hjoin, contains_append_lines,
    knownHostsContainsEndpoint_withRecord hreads.toReadsRecords hhost hhost hname hopenssh]
  simp

end Records

/-! ## Without rivals -/

/-- The side condition on a step: a handler does not find the endpoint unknown while another one
has found it unknown and is not done with its record. -/
def NoRival (host : String) (port : UInt16) (s : SharedState ι) : SharedStep ι → Prop
  | .scan _ => knownHostsContainsEndpoint (some s.file.content) host port = true ∨
      ∀ j, s.phase j ≠ .unknown
  | _ => True

instance [Fintype ι] (host : String) (port : UInt16) (s : SharedState ι) :
    (l : SharedStep ι) → Decidable (NoRival host port s l)
  | .scan _ => inferInstanceAs (Decidable
      (knownHostsContainsEndpoint (some s.file.content) host port = true ∨
        ∀ j, s.phase j ≠ .unknown))
  | .read _ | .learn _ => .isTrue trivial

/-- No handler has found the endpoint unknown yet, and the file is the old one. -/
structure Quiet (old : ByteArray) (s : SharedState ι) : Prop where
  content : s.file.content = old
  left : ∀ i, s.file.left i = none
  phase : ∀ i, s.phase i ≠ .unknown ∧ s.phase i ≠ .accepted
  text : ∀ i, s.phase i = .unmatched → ∃ text : String, old = text.toUTF8

/-- Handler `w` has found the endpoint unknown, and no other one has: only its record is written
behind the old text. -/
structure Recording (russh : RusshKeys Key) (host : String) (port : UInt16) (key : ι → Key)
    (text : String) (w : ι) (s : SharedState ι) : Prop where
  alone : ∀ i, s.phase i = .unknown → i = w
  accepted : ∀ i, s.phase i = .accepted → key i = key w
  progress : (s.phase w = .unknown ∧ s.file.left w = none ∧ s.file.content = text.toUTF8) ∨
    ∃ written rest, (⟨host, port, key w⟩ : LearnCall Key).appends russh text.toUTF8 =
        written ++ rest ∧
      s.file.left w = some rest ∧ s.file.content = (text ++ String.join written).toUTF8 ∧
      (rest = [] ∨ s.phase w = .unknown)

/-- What every step without a rival keeps. -/
def SharedInv (russh : RusshKeys Key) (host : String) (port : UInt16) (key : ι → Key)
    (old : ByteArray) (s : SharedState ι) : Prop :=
  Quiet old s ∨ ∃ text : String, old = text.toUTF8 ∧ ∃ w, Recording russh host port key text w s

section Rivals

variable [DecidableEq Key] {russh : RusshKeys Key}
  {lineKey : String → UInt16 → List Char → Option (Except String Key)}
  {host text : String} {port : UInt16} {key : ι → Key} {s s' : SharedState ι} {i w : ι}
  {old : ByteArray}

omit [DecidableEq Key] in
/-- A handler that goes on without having found the endpoint unknown. -/
theorem Quiet.move (h : Quiet old s) {phase : HandlerPhase} (hunknown : phase ≠ .unknown)
    (haccepted : phase ≠ .accepted)
    (htext : phase = .unmatched → ∃ text : String, old = text.toUTF8) :
    Quiet old (s.move i phase) := by
  refine ⟨h.content, h.left, ?_, ?_⟩
  · intro j
    rcases eq_or_ne j i with rfl | hne
    · rw [SharedState.move_self]
      exact ⟨hunknown, haccepted⟩
    · rw [SharedState.move_of_ne _ _ hne]
      exact h.phase j
  · intro j hj
    rcases eq_or_ne j i with rfl | hne
    · exact htext (by rwa [SharedState.move_self] at hj)
    · rw [SharedState.move_of_ne _ _ hne] at hj
      exact h.text j hj

/-- russh does not know a key of an endpoint without entries. -/
theorem Quiet.read (hreads : ReadsKnownHosts russh lineKey) (h : Quiet old s)
    (hunknown : ∀ text : String, old = text.toUTF8 → entries lineKey text host port = []) :
    Quiet old (s.move i (afterRead
      (russh.checkKnownHostsPath (some s.file.content) host port (key i)))) := by
  rw [h.content]
  cases htext : String.fromUTF8? old with
  | none =>
      obtain ⟨message, hcheck⟩ := hreads.notText old host port (key i) htext
      rw [hcheck]
      exact h.move nofun nofun nofun
  | some text =>
      obtain rfl := toUTF8_of_fromUTF8? htext
      rw [hreads.text, hunknown text rfl]
      exact h.move nofun nofun fun _ => ⟨text, rfl⟩

omit [DecidableEq Key] in
/-- The first handler that finds the endpoint unknown. -/
theorem Quiet.recording (h : Quiet text.toUTF8 s) :
    Recording russh host port key text i (s.move i .unknown) := by
  refine ⟨?_, ?_, .inl ⟨SharedState.move_self .., h.left i, h.content⟩⟩
  · intro j hj
    by_contra hne
    rw [SharedState.move_of_ne _ _ hne] at hj
    exact (h.phase j).1 hj
  · intro j hj
    rcases eq_or_ne j i with rfl | hne
    · rfl
    · rw [SharedState.move_of_ne _ _ hne] at hj
      exact absurd hj (h.phase j).2

omit [DecidableEq Key] in
/-- Another handler goes on; where it accepts, it has the same key. -/
theorem Recording.move (h : Recording russh host port key text w s) {phase : HandlerPhase}
    (hi : s.phase i ≠ .unknown) (hunknown : phase ≠ .unknown)
    (haccepted : phase = .accepted → key i = key w) :
    Recording russh host port key text w (s.move i phase) := by
  -- the handler that records is not the one that moves
  have hw : s.phase w = .unknown → (s.move i phase).phase w = .unknown := by
    intro hphase
    have hne : w ≠ i := by
      rintro rfl
      exact hi hphase
    rwa [SharedState.move_of_ne _ _ hne]
  refine ⟨?_, ?_, ?_⟩
  · intro j hj
    rcases eq_or_ne j i with rfl | hne
    · exact absurd (by rwa [SharedState.move_self] at hj) hunknown
    · rw [SharedState.move_of_ne _ _ hne] at hj
      exact h.alone j hj
  · intro j hj
    rcases eq_or_ne j i with rfl | hne
    · exact haccepted (by rwa [SharedState.move_self] at hj)
    · rw [SharedState.move_of_ne _ _ hne] at hj
      exact h.accepted j hj
  · rcases h.progress with ⟨hphase, hfile⟩ | ⟨written, rest, happends, hleft, hcontent, hrest⟩
    · exact .inl ⟨hw hphase, hfile⟩
    · exact .inr ⟨written, rest, happends, hleft, hcontent, hrest.imp id hw⟩

omit [DecidableEq ι] [DecidableEq Key] in
theorem Recording.content_eq (h : Recording russh host port key text w s) :
    ∃ written rest, (⟨host, port, key w⟩ : LearnCall Key).appends russh text.toUTF8 =
      written ++ rest ∧ s.file.content = (text ++ String.join written).toUTF8 := by
  rcases h.progress with ⟨-, -, hcontent⟩ | ⟨written, rest, happends, -, hcontent, -⟩
  · exact ⟨[], _, rfl, by rw [hcontent, String.join_nil, String.append_empty]⟩
  · exact ⟨written, rest, happends, hcontent⟩

/-- russh knows the recorded key only. -/
theorem Recording.read (hreads : SkipsPartialLines russh lineKey) (hhost : PlainHost host)
    (hunknown : entries lineKey text host port = [])
    (h : Recording russh host port key text w s) (hi : s.phase i = .start) :
    Recording russh host port key text w (s.move i (afterRead
      (russh.checkKnownHostsPath (some s.file.content) host port (key i)))) := by
  obtain ⟨written, rest, happends, hcontent⟩ := h.content_eq
  have hentries := entries_of_appends hreads hhost hunknown happends
  rw [hcontent, hreads.text]
  generalize hverdict : verdict russh.algorithm (key i)
    (entries lineKey (text ++ String.join written) host port) = answer
  refine h.move (by rw [hi]; nofun) ?_ ?_
  · rcases answer with _ | _ | _ <;> nofun
  · intro haccepted
    -- russh has found the key in the file
    have hanswer : answer = .ok true := by
      rcases answer with _ | _ | _
      · cases haccepted
      · cases haccepted
      · rfl
    rw [hanswer] at hverdict
    exact Except.ok.inj (hentries _ (mem_of_verdict_eq_ok_true hverdict))

/-- Nobody else finds the endpoint unknown, neither while the record is written nor afterwards. -/
theorem Recording.scan (hreads : SkipsPartialLines russh lineKey) (hhost : PlainHost host)
    (hname : endpointName host port ≠ "") (h : Recording russh host port key text w s)
    (hi : s.phase i = .unmatched) (hok : NoRival host port s (.scan i)) :
    Recording russh host port key text w (s.move i
      (if knownHostsContainsEndpoint (some s.file.content) host port then .refused
      else .unknown)) := by
  have hfound : knownHostsContainsEndpoint (some s.file.content) host port = true := by
    rcases hok with hfound | hnone
    · exact hfound
    · -- the record is complete
      rcases h.progress with ⟨hphase, -⟩ | ⟨written, rest, happends, -, hcontent, hrest⟩
      · exact absurd hphase (hnone w)
      · obtain rfl := hrest.resolve_right (hnone w)
        rw [List.append_nil] at happends
        rw [hcontent, ← happends]
        exact contains_of_appends hreads hhost hname
  rw [if_pos hfound]
  exact h.move (by rw [hi]; nofun) nofun nofun

theorem afterLearn_of_ne {encoded : Except KeysError String} {pieces : List String}
    (h : pieces ≠ []) : afterLearn encoded (some pieces) = .unknown := by
  cases pieces with
  | nil => exact absurd rfl h
  | cons piece pieces => rfl

/-- Handler `w` looks at the last byte, or makes one more append. -/
theorem Recording.learn (hreads : SkipsPartialLines russh lineKey)
    (h : Recording russh host port key text w s) {l : RaceStep ι} {file : RaceState ι}
    (hl : s.phase l.caller = .unknown)
    (hstep : (learnRace russh fun i => ⟨host, port, key i⟩).step s.file l = some file) :
    Recording russh host port key text w ({ s with file }.move l.caller
      (afterLearn (russh.toOpenssh (key l.caller)) (file.left l.caller))) := by
  obtain ⟨base64, hopenssh, -⟩ := hreads.encodes (key w)
  -- only the handler that records has appends left
  have hw : l.caller = w := h.alone _ hl
  rw [hw, hopenssh]
  have halone : ∀ phase, ∀ i, ({ s with file }.move w phase).phase i = .unknown → i = w := by
    intro phase i hi
    by_contra hne
    rw [SharedState.move_of_ne _ _ hne] at hi
    exact hne (h.alone i hi)
  have haccepted : ∀ phase, ∀ i, ({ s with file }.move w phase).phase i = .accepted →
      key i = key w := by
    intro phase i hi
    rcases eq_or_ne i w with rfl | hne
    · rfl
    · rw [SharedState.move_of_ne _ _ hne] at hi
      exact h.accepted i hi
  refine ⟨halone _, haccepted _, .inr ?_⟩
  rw [SharedState.move_self, SharedState.move_file]
  rcases learnRace_cases hstep with ⟨i, rfl, hleft, rfl⟩ | ⟨i, piece, rest, rfl, hleft, rfl⟩
  · -- nothing is written yet
    obtain rfl : i = w := hw
    rcases h.progress with ⟨-, -, hcontent⟩ | ⟨_, _, -, hsome, -⟩
    · refine ⟨[], _, rfl, ?_, ?_, .inr ?_⟩
      · simp [hcontent]
      · simp [hcontent]
      · simp only [Function.update_self]
        refine afterLearn_of_ne ?_
        simp [LearnCall.pieces, recordPieces.eq_def, hopenssh]
    · cases hleft.symm.trans hsome
  · -- one more piece
    obtain rfl : i = w := hw
    rcases h.progress with ⟨-, hnone, -⟩ | ⟨written, rest', happends, hsome, hcontent, -⟩
    · cases hnone.symm.trans hleft
    · obtain rfl : rest' = piece :: rest := Option.some.inj (hsome.symm.trans hleft)
      refine ⟨written ++ [piece], rest, by simpa using happends, Function.update_self .., ?_, ?_⟩
      · simp [hcontent, String.join_append, String.join_cons, String.toUTF8_eq_toByteArray,
          ByteArray.append_assoc]
      · simp only [Function.update_self]
        -- with the last piece its key is accepted
        by_cases hrest : rest = []
        · exact .inl hrest
        · exact .inr (afterLearn_of_ne hrest)

/-- Every step without a rival keeps the invariant. -/
theorem sharedInv_step (hreads : SkipsPartialLines russh lineKey) (hhost : PlainHost host)
    (hname : endpointName host port ≠ "")
    (hunknown : ∀ text : String, old = text.toUTF8 → entries lineKey text host port = [])
    (s : SharedState ι) (l : SharedStep ι) (s' : SharedState ι) (hok : NoRival host port s l)
    (hstep : (sharedFile russh host port key).step s l = some s')
    (hinv : SharedInv russh host port key old s) : SharedInv russh host port key old s' := by
  rcases sharedFile_cases hstep with ⟨i, rfl, hi, rfl⟩ | ⟨i, rfl, hi, rfl⟩ |
    ⟨l', file, rfl, hl, hfile, rfl⟩
  · rcases hinv with hquiet | ⟨text, rfl, w, hrecording⟩
    · exact .inl (hquiet.read hreads.toReadsKnownHosts hunknown)
    · exact .inr ⟨text, rfl, w, hrecording.read hreads hhost (hunknown text rfl) hi⟩
  · rcases hinv with hquiet | ⟨text, rfl, w, hrecording⟩
    · -- the first handler to get here may find the endpoint unknown
      split
      · exact .inl (hquiet.move nofun nofun nofun)
      · obtain ⟨text, rfl⟩ := hquiet.text i hi
        exact .inr ⟨text, rfl, i, hquiet.recording⟩
    · exact .inr ⟨text, rfl, w, hrecording.scan hreads hhost hname hi hok⟩
  · rcases hinv with hquiet | ⟨text, rfl, w, hrecording⟩
    · exact absurd hl (hquiet.phase _).1
    · exact .inr ⟨text, rfl, w, hrecording.learn hreads hl hfile⟩

/-- Trust on first use pins one key as long as no handler finds the endpoint unknown between the
scan of another one that has and the last append of its record. -/
theorem accepted_keys_agree (hreads : SkipsPartialLines russh lineKey) (hhost : PlainHost host)
    (hname : endpointName host port ≠ "") {content : Option ByteArray}
    (hunknown : ∀ text : String, content.getD .empty = text.toUTF8 →
      entries lineKey text host port = [])
    {trace : List (SharedStep ι)}
    (hok : (sharedFile russh host port key).AllSteps (NoRival host port) (.init ι content) trace)
    (hrun : (sharedFile russh host port key).run (.init ι content) trace = some s)
    {i j : ι} (hi : s.phase i = .accepted) (hj : s.phase j = .accepted) : key i = key j := by
  have hinit : SharedInv russh host port key (content.getD .empty)
      (SharedState.init ι content) := .inl ⟨rfl, fun _ => rfl, fun _ => ⟨nofun, nofun⟩, nofun⟩
  rcases Machine.run_invariant_of (sharedInv_step hreads hhost hname hunknown) hok hrun hinit with
    hquiet | ⟨text, -, w, hrecording⟩
  · exact absurd hi (hquiet.phase i).2
  · exact (hrecording.accepted i hi).trans (hrecording.accepted j hj).symm

end Rivals

/-! ## Handlers at work -/

/-- The sample key store reads no key from the first part of a record. -/
theorem SampleKey.skipsPartialLines : SkipsPartialLines SampleKey.russh SampleKey.lineKey where
  toReadsRecords := SampleKey.readsRecords
  names host port names hblank := by
    constructor
    · rw [lineKey, List.splitOn_eq_singleton hblank]
      split <;> rfl
    · have hfields : (names ++ [' ']).splitOn ' ' = [names, []] :=
        List.splitOn_append_cons_self_of_not_mem hblank []
      rw [lineKey, hfields]
      split <;> rfl

/-- The steps of a `learn` call that makes so many appends. -/
def learnSteps (i : ι) (appends : Nat) : List (SharedStep ι) :=
  .learn (.probe i) :: List.replicate appends (.learn (.append i))

omit [DecidableEq ι] in
theorem exists_accepted {run : Option (SharedState ι)} {i j : ι}
    (h : run.map (fun s => (s.phase i, s.phase j)) = some (.accepted, .accepted)) :
    ∃ s, run = some s ∧ s.phase i = .accepted ∧ s.phase j = .accepted := by
  obtain ⟨s, hrun, hphases⟩ := Option.map_eq_some_iff.mp h
  obtain ⟨hi, hj⟩ := Prod.mk.inj hphases
  exact ⟨s, hrun, hi, hj⟩

/-- Two handlers with one key and a third one with another key. -/
def threeKeys : Fin 3 → SampleKey
  | 0 | 1 => .ed25519
  | 2 => .ecdsa

/-- Both handlers with the same key scan before either appends, and then append in turns. -/
def mixedSteps : List (SharedStep (Fin 3)) :=
  [.read 0, .scan 0, .read 1, .scan 1, .learn (.probe 0), .learn (.probe 1)] ++
    (List.replicate 4 [.learn (.append 0), .learn (.append 1)]).flatten

/-- What they leave: one line for neither name, and a blank one. -/
def mixedLine : List Char :=
  ' ' :: SampleKey.ed25519.openssh.toList ++ SampleKey.ed25519.openssh.toList

def mixedText : String :=
  String.ofList (Text.unlines ["a.examplea.example".toList ++ ' ' :: mixedLine, []])

/-- Two handlers that append at the same time leave a line that is no record of theirs. -/
theorem mixedSteps_run :
    ∃ s, (sharedFile SampleKey.russh "a.example" 22 threeKeys).run (.init (Fin 3) none)
        mixedSteps = some s ∧
      s.phase 0 = .accepted ∧ s.phase 2 = .start ∧ s.file.left 2 = none ∧
      s.file.content = mixedText.toUTF8 := by
  let pieces : List String := ["a.example", "a.example", " ", " ", SampleKey.ed25519.openssh,
    SampleKey.ed25519.openssh, "\n", "\n"]
  have htext : mixedText = String.join pieces := by
    rw [← String.toList_inj]
    simp [mixedText, Text.unlines, mixedLine, pieces, String.join_cons]
  refine ⟨_, rfl, rfl, rfl, rfl, Eq.trans ?_ (congrArg String.toUTF8 htext.symm)⟩
  simp only [pieces, String.join_cons, String.join_nil, String.toUTF8_eq_toByteArray,
    String.toByteArray_append, String.toByteArray_empty, ByteArray.append_empty,
    ← ByteArray.append_assoc]
  exact congrArg (· ++ _ ++ _ ++ _ ++ _ ++ _ ++ _ ++ _) ByteArray.empty_append

/-- Neither reader finds the endpoint there. -/
theorem mixedText_fresh :
    FirstUseCall.Fresh SampleKey.russh SampleKey.lineKey mixedText
      { host := "a.example", port := 22, key := .ecdsa } := by
  -- the two names have run together, and the scan does not know them
  have hnewline : '\n' ∉ "a.examplea.example".toList ++ ' ' :: mixedLine := by
    simp [mixedLine, SampleKey.newline_not_mem_openssh]
  have hlines : ∀ line ∈ ["a.examplea.example".toList ++ ' ' :: mixedLine, []], '\n' ∉ line := by
    simpa using hnewline
  constructor
  · rw [mixedText, SampleKey.entries_other_names (by decide) hnewline (by decide +kernel)]
    rfl
  · have hplain : "a.examplea.example".toList.all (!Text.isWhitespace ·) = true := by decide
    have htoken : Text.firstToken ("a.examplea.example".toList ++ ' ' :: mixedLine) =
        some "a.examplea.example".toList := by
      refine Text.firstToken_append_cons (by decide) ?_ (by decide)
      intro c hc
      simpa using List.all_eq_true.mp hplain c hc
    have hblank : Text.firstToken [] = none := rfl
    rw [knownHostsContainsEndpoint_text, mixedText, String.toList_ofList,
      Text.rawLines_unlines hlines]
    simp only [List.filterMap_cons, htoken, hblank, List.filterMap_nil, List.any_cons,
      List.any_nil, Bool.or_false]
    decide

/-- Two handlers that both find the endpoint unknown pin two keys of one algorithm. Two with the
same key mix their records into a line for nobody, and a third one pins another key afterwards. And
without any overlap, the empty host on port 22 is pinned to two keys. -/
theorem first_use_accepts_two_keys :
    SkipsPartialLines SampleKey.russh SampleKey.lineKey ∧
    (∃ s, (sharedFile SampleKey.russh "ssh.example.com" 2222 id).run (.init SampleKey none)
        ([.read .ed25519, .scan .ed25519, .read .ed25519Alt, .scan .ed25519Alt] ++
          learnSteps .ed25519 7 ++ learnSteps .ed25519Alt 7) = some s ∧
      s.phase .ed25519 = .accepted ∧ s.phase .ed25519Alt = .accepted) ∧
    (∃ rest s, (sharedFile SampleKey.russh "a.example" 22 threeKeys).run (.init (Fin 3) none)
        (mixedSteps ++ rest) = some s ∧
      s.phase 0 = .accepted ∧ s.phase 2 = .accepted) ∧
    (∃ s, (sharedFile SampleKey.russh "" 22 id).run (.init SampleKey none)
        ([.read .ed25519, .scan .ed25519] ++ learnSteps .ed25519 4 ++
          [.read .ecdsa, .scan .ecdsa] ++ learnSteps .ecdsa 4) = some s ∧
      s.phase .ed25519 = .accepted ∧ s.phase .ecdsa = .accepted) := by
  refine ⟨SampleKey.skipsPartialLines, exists_accepted ?_, ?_, exists_accepted ?_⟩
  · decide +kernel
  · -- the third handler runs alone, and finds the endpoint as unknown as before
    obtain ⟨s, hmixed, hfirst, hstart, hleft, hcontent⟩ := mixedSteps_run
    let disk : Disk := fun _ => some mixedText.toUTF8
    have hdisk : disk "known_hosts" = (some mixedText).map String.toUTF8 := rfl
    have haccepts := (check_of_fresh SampleKey.readsRecords hdisk mixedText_fresh).1
    have hbytes : s.file.content = (disk "known_hosts").getD .empty := hcontent
    obtain ⟨rest, s', hrun, -, hphase, hothers⟩ :=
      check_runs SampleKey.readsRecords hstart hleft hbytes
    refine ⟨rest, s', Machine.run_append.mpr ⟨s, hmixed, hrun⟩, ?_, hphase.mpr haccepts⟩
    exact (hothers 0 (by decide)).1.trans hfirst
  · decide +kernel

/-- The last handler reads before anything is recorded and scans the record before its newline, the
second one reads it there. -/
def threeSteps : List (SharedStep (Fin 3)) :=
  [.read 2, .read 0, .scan 0] ++ learnSteps 0 3 ++ [.scan 2, .read 1, .learn (.append 0)]

/-- Only the key of the first handler is accepted. -/
theorem accepted_keys_agree_threeHandlers :
    ∃ s, (sharedFile SampleKey.russh "a.example" 22 threeKeys).run (.init (Fin 3) none)
        threeSteps = some s ∧
      s.phase 0 = .accepted ∧ s.phase 1 = .accepted ∧
      ∀ i, s.phase i = .accepted → threeKeys i = .ed25519 := by
  obtain ⟨s, hrun, hfirst, hsecond⟩ : ∃ s, (sharedFile SampleKey.russh "a.example" 22
      threeKeys).run (.init (Fin 3) none) threeSteps = some s ∧ s.phase 0 = .accepted ∧
      s.phase 1 = .accepted := exists_accepted (by decide +kernel)
  have hplain : PlainHost "a.example" := by decide
  have hname : endpointName "a.example" 22 ≠ "" := by decide
  have hunknown : ∀ text : String, (none : Option ByteArray).getD .empty = text.toUTF8 →
      entries SampleKey.lineKey text "a.example" 22 = [] := by
    intro text htext
    obtain rfl : "" = text := String.toByteArray_inj.mp htext
    rfl
  have hok : (sharedFile SampleKey.russh "a.example" 22 threeKeys).AllSteps
      (NoRival "a.example" 22) (.init (Fin 3) none) threeSteps := by
    decide +kernel
  refine ⟨s, hrun, hfirst, hsecond, fun i hi => ?_⟩
  exact accepted_keys_agree SampleKey.skipsPartialLines hplain hname hunknown hok hrun hi hfirst

end Rssh
