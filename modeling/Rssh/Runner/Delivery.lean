import Rssh.Runner.Split

/-!
# What the runner delivers

The output loop of `run_split_shell_with_events` copies while the input thread does what it does.
When the runner returns without an error, its loop has come to a read of zero bytes, and everything
read before it has been written.

* `read_cases` is one read of a reader without deadline, up to the next payload or the end.
* `Copied` is what the copy keeps, and `Delivered` what it comes to.
* `returned_ok_delivers` is the result about all interleavings.
-/

namespace Rssh

open ChannelMsg

/-! ## One read -/

/-- Messages that the message loop passes over. -/
def Skipped (messages : List ChannelMsg) : Prop :=
  ∀ m ∈ messages, m.payload? = none ∧ m ≠ .close

theorem Skipped.payload_eq {messages : List ChannelMsg} (h : Skipped messages) :
    payload messages = [] := by
  unfold payload
  rw [List.flatMap_eq_nil_iff]
  intro m hm
  rw [(h m hm).1]
  rfl

/-- A read goes up to the next payload, or to Close or the end of the channel. -/
theorem read_cases {capacity : Nat} (hcap : 0 < capacity) (elapsed : Nat → Bool)
    (r : RusshChannelReader) (hpending : r.pendingRead = []) (hopen : r.finished = false)
    (htimeout : r.inactivityTimeout = none) :
    ∃ skipped, Skipped skipped ∧
      ((∃ m rest bytes, r.readHalf = skipped ++ m :: rest ∧ m.payload? = some bytes ∧
        russhShellReader.read r elapsed capacity =
          (.bytes (bytes.take capacity),
            { r with
              readHalf := rest
              pendingRead := bytes.drop capacity
              result := resultAfter r.result skipped })) ∨
      ∃ reader : RusshChannelReader,
        (r.readHalf = skipped ∨ ∃ rest, r.readHalf = skipped ++ .close :: rest) ∧
        russhShellReader.read r elapsed capacity = (.bytes [], reader) ∧
        reader.result = resultAfter r.result skipped) := by
  generalize hhalf : r.readHalf = messages
  induction messages generalizing r with
  | nil =>
      refine ⟨[], fun m hm => absurd hm List.not_mem_nil, .inr ⟨_, .inl rfl,
        read_end hcap hpending hopen htimeout (.inl hhalf), ?_⟩⟩
      simp [resultAfter, lastResult]
  | cons m rest ih =>
      have hnone : resultAfter r.result [] = r.result := by simp [resultAfter, lastResult]
      by_cases hclose : m = .close
      · subst hclose
        refine ⟨[], fun m hm => absurd hm List.not_mem_nil, .inr ⟨_, .inr ⟨rest, rfl⟩,
          read_end hcap hpending hopen htimeout (.inr ⟨rest, hhalf⟩), ?_⟩⟩
        exact hnone.symm
      cases hm : m.payload? with
      | some bytes =>
          refine ⟨[], fun m hm => absurd hm List.not_mem_nil, .inl ⟨m, rest, bytes, rfl, hm, ?_⟩⟩
          rw [read_payload hcap hpending hopen htimeout hhalf hm, hnone]
      | none =>
          -- a message without payload: the read goes on behind it
          rw [read_skip hcap hpending hopen htimeout hhalf hm hclose]
          rcases ih
              { r with
                readHalf := rest
                result := ⟨m.exitStatus?.or r.result.exitStatus,
                  m.exitSignal?.or r.result.exitSignal⟩ }
              hpending hopen htimeout rfl with ⟨skipped, hskipped, hread⟩
          refine ⟨m :: skipped, ?_, ?_⟩
          · intro message hmessage
            rcases List.mem_cons.mp hmessage with rfl | hbehind
            · exact ⟨hm, hclose⟩
            · exact hskipped message hbehind
          · rw [resultAfter_cons]
            rcases hread with ⟨next, behind, bytes, hsplit, hbytes, hread⟩ |
              ⟨reader, hend, hread, hresult⟩
            · exact .inl ⟨next, behind, bytes, congrArg (m :: ·) hsplit, hbytes, hread⟩
            · refine .inr ⟨reader, ?_, hread, hresult⟩
              rcases hend with hnil | ⟨behind, hsplit⟩
              · exact .inl (congrArg (m :: ·) hnil)
              · exact .inr ⟨behind, congrArg (m :: ·) hsplit⟩

/-! ## The copy -/

/-- No payload is empty: none of them reads like the end of the session. -/
def NoEmptyPayload (messages : List ChannelMsg) : Prop :=
  ∀ m ∈ messages, m.payload? ≠ some []

/-- While it copies: what has been consumed is written or still pending. -/
structure Copied (messages : List ChannelMsg) (copy : CopyState RusshChannelReader) : Prop where
  consumed : ∃ consumed, messages = consumed ++ copy.reader.readHalf ∧ .close ∉ consumed ∧
    copy.reader.result = lastResult consumed ∧
    copy.written ++ copy.reader.pendingRead = payload consumed
  count : copy.outputBytes = min copy.written.length u64Max
  open_ : copy.reader.finished = false
  timeout : copy.reader.inactivityTimeout = none

/-- At its end: all payloads before Close are written, and all metadata before it is known. -/
structure Delivered (messages : List ChannelMsg) (copy : CopyState RusshChannelReader) :
    Prop where
  written : copy.written = payload (beforeClose messages)
  count : copy.outputBytes = min (payload (beforeClose messages)).length u64Max
  result : copy.reader.result = lastResult (beforeClose messages)

theorem lastResult_append (xs ys : List ChannelMsg) :
    lastResult (xs ++ ys) = resultAfter (lastResult xs) ys := by
  simp [resultAfter, lastResult, List.filterMap_append, List.getLast?_append]

/-- Messages without a CLOSE are all before it. -/
theorem beforeClose_of_not_mem {consumed : List ChannelMsg} (h : .close ∉ consumed) :
    beforeClose consumed = consumed ∧
      ∀ rest, beforeClose (consumed ++ .close :: rest) = consumed := by
  have hall : ∀ m ∈ consumed, decide (m ≠ .close) = true := by
    intro m hm
    rw [decide_eq_true_eq]
    rintro rfl
    exact h hm
  constructor
  · exact List.takeWhile_eq_self_iff.mpr hall
  · intro rest
    unfold beforeClose
    rw [List.takeWhile_append_of_pos hall]
    simp

/-- What is known behind a turn. -/
def AfterTurn (messages : List ChannelMsg) (copy : CopyState RusshChannelReader) :
    CopyOutcome → Prop
  | .more => Copied messages copy
  | .done (.ok _) => Delivered messages copy
  | .done (.error _) => True
  | .panicked => True

section Copy

variable {messages : List ChannelMsg} {copy : CopyState RusshChannelReader}

theorem min_add_length (count more : Nat) :
    saturatingAdd (min count u64Max) more = min (count + more) u64Max := by
  unfold saturatingAdd
  omega

/-- A turn that has read some bytes goes on once they are written. -/
theorem afterTurn_of_bytes (h : Copied messages copy) {elapsed : Nat → Bool}
    {bytes : List UInt8} {reader : RusshChannelReader}
    (hread : russhShellReader.read copy.reader elapsed copyBufferSize = (.bytes bytes, reader))
    (hbytes : bytes ≠ [])
    (hconsumed : ∃ consumed, messages = consumed ++ reader.readHalf ∧ .close ∉ consumed ∧
      reader.result = lastResult consumed ∧
      copy.written ++ bytes ++ reader.pendingRead = payload consumed)
    (hopen : reader.finished = false) (htimeout : reader.inactivityTimeout = none)
    (sink : SinkOutcome) :
    AfterTurn messages (copyStep russhShellReader elapsed sink copy).2
      (copyStep russhShellReader elapsed sink copy).1 := by
  have hlength : bytes.length ≠ 0 := fun h => hbytes (List.length_eq_zero_iff.mp h)
  cases sink with
  | ok =>
      have hstep : copyStep russhShellReader elapsed .ok copy =
          (.more,
            { reader, written := copy.written ++ bytes,
              outputBytes := saturatingAdd copy.outputBytes bytes.length }) := by
        simp [copyStep, hread, hlength]
      rw [hstep]
      refine ⟨hconsumed, ?_, hopen, htimeout⟩
      show saturatingAdd copy.outputBytes bytes.length = _
      rw [h.count, min_add_length, List.length_append]
  | writeFailed message | flushFailed message | panicked =>
      simp only [copyStep, hread, hlength, if_false, AfterTurn]

/-- A turn that comes to the end has delivered everything. -/
theorem afterTurn_of_end (h : Copied messages copy) {elapsed : Nat → Bool}
    {reader : RusshChannelReader} {consumed skipped : List ChannelMsg}
    (hread : russhShellReader.read copy.reader elapsed copyBufferSize = (.bytes [], reader))
    (hresult : reader.result = resultAfter (lastResult consumed) skipped)
    (hbytes : copy.written = payload consumed) (hskipped : Skipped skipped)
    (hbefore : beforeClose messages = consumed ++ skipped) (sink : SinkOutcome) :
    AfterTurn messages (copyStep russhShellReader elapsed sink copy).2
      (copyStep russhShellReader elapsed sink copy).1 := by
  have hstep : copyStep russhShellReader elapsed sink copy =
      (.done (.ok ()), { copy with reader }) := by
    simp [copyStep, hread]
  have hpayload : copy.written = payload (beforeClose messages) := by
    rw [hbefore, payload_append, hskipped.payload_eq, List.append_nil]
    exact hbytes
  rw [hstep]
  refine ⟨hpayload, ?_, ?_⟩
  · rw [← hpayload]
    exact h.count
  · show reader.result = _
    rw [hbefore, lastResult_append]
    exact hresult

/-- One turn of the output loop. -/
theorem copyStep_afterTurn (hne : NoEmptyPayload messages) (h : Copied messages copy)
    (elapsed : Nat → Bool) (sink : SinkOutcome) :
    AfterTurn messages (copyStep russhShellReader elapsed sink copy).2
      (copyStep russhShellReader elapsed sink copy).1 := by
  have hcap : 0 < copyBufferSize := by decide
  rcases h.consumed with ⟨consumed, hall, hclose, hresult, hbytes⟩
  by_cases hpending : copy.reader.pendingRead = []
  · rw [hpending, List.append_nil] at hbytes
    rcases read_cases hcap elapsed copy.reader hpending h.open_ h.timeout with
      ⟨skipped, hskipped, hread⟩
    -- only messages before CLOSE are passed over
    have hclosed : .close ∉ consumed ++ skipped := by
      rw [List.mem_append, not_or]
      exact ⟨hclose, fun hmem => (hskipped _ hmem).2 rfl⟩
    rw [hresult, ← lastResult_append] at hread
    rcases hread with ⟨m, rest, bytes, hhalf, hm, hread⟩ | ⟨reader, hend, hread, hmeta⟩
    · rw [hhalf] at hall
      have hmem : m ∈ messages := by
        rw [hall]
        simp
      -- a message with bytes is no end of the copy
      have hfilled : bytes ≠ [] := by
        rintro rfl
        exact hne m hmem hm
      have hpart : m ≠ .close ∧ m.exitStatus? = none ∧ m.exitSignal? = none := by
        cases m <;> simp_all [payload?, exitStatus?, exitSignal?]
      refine afterTurn_of_bytes h hread ?_ ⟨consumed ++ skipped ++ [m], ?_, ?_, ?_, ?_⟩ h.open_
        h.timeout sink
      · intro hnil
        rcases List.take_eq_nil_iff.mp hnil with hzero | hempty
        · omega
        · exact hfilled hempty
      · rw [hall]
        simp
      · rw [List.mem_append, not_or, List.mem_singleton]
        exact ⟨hclosed, fun heq => hpart.1 heq.symm⟩
      · show lastResult (consumed ++ skipped) = _
        rw [lastResult_append _ [m]]
        simp [resultAfter, lastResult, hpart.2]
      · rw [payload_append, payload_append, hskipped.payload_eq, hbytes]
        simp [payload, hm]
    · refine afterTurn_of_end h hread ?_ hbytes hskipped ?_ sink
      · rw [hmeta, lastResult_append]
      · rw [hall]
        rcases hend with hnil | ⟨rest, hhalf⟩
        · rw [hnil]
          exact (beforeClose_of_not_mem hclosed).1
        · rw [hhalf, ← List.append_assoc]
          exact (beforeClose_of_not_mem hclosed).2 rest
  · -- bytes that are queued come first
    have hread : russhShellReader.read copy.reader elapsed copyBufferSize =
        (.bytes (copy.reader.pendingRead.take copyBufferSize),
          { copy.reader with pendingRead := copy.reader.pendingRead.drop copyBufferSize }) := by
      simp only [russhShellReader, RusshChannelReader.readBlocking_pending hcap hpending]
    refine afterTurn_of_bytes h hread ?_ ⟨consumed, hall, hclose, hresult, ?_⟩ h.open_ h.timeout
      sink
    · intro hnil
      rcases List.take_eq_nil_iff.mp hnil with hzero | hempty
      · omega
      · exact hpending hempty
    · rw [List.append_assoc, List.take_append_drop]
      exact hbytes

end Copy

/-! ## The runner -/

/-- What the calling thread knows of its copy. -/
def OutputSide (messages : List ChannelMsg) (s : RunnerState RusshChannelReader) : Prop :=
  match s.out with
  | .copying => Copied messages s.copy
  | .cancelling result | .joining result | .closing result _ | .returned result _ =>
      result = .ok () → Delivered messages s.copy
  | .unwinding => True

/-- The runner is `Ok` only when its output loop was, with the count of that. -/
theorem Returned.of_ok {ρ ε : Type} {R : SshShellReader ρ ε} {s : RunnerState ρ}
    {outputResult : Except SshSessionError Unit} {outcome : SshSessionOutcome}
    (h : Returned R s outputResult (.ok outcome)) :
    outputResult = .ok () ∧ outcome.outputBytes = s.copy.outputBytes := by
  have hvalue : ∀ inputResult closeResult,
      Except.ok outcome = runnerResult R s.copy outputResult inputResult closeResult →
        outputResult = .ok () ∧ outcome.outputBytes = s.copy.outputBytes := by
    intro inputResult closeResult hresult
    cases outputResult with
    | error error => simp [runnerResult, bind, Except.bind] at hresult
    | ok value =>
        rcases inputResult with _ | _ <;> rcases closeResult with _ | _ <;>
          simp_all [runnerResult, bind, Except.bind, pure, Except.pure]
  generalize hresult : Except.ok outcome = result at h
  cases h with
  | dead hthread => exact hvalue _ _ hresult
  | failed hthread => exact hvalue _ _ hresult
  | finished hthread houtcome => exact hvalue _ _ hresult

section Runner

variable {messages : List ChannelMsg}

/-- Each step of the runner keeps what is known of the output. -/
theorem outputSide_step (hne : NoEmptyPayload messages) :
    ∀ s l s', (splitRunner russhShellReader).step s l = some s' → OutputSide messages s →
      OutputSide messages s' := by
  intro s l s' h hinv
  cases RunnerState.step_sound h with
  | pump | exit | emergencyClose => exact hinv
  | @copy elapsed sink hout =>
      simp only [OutputSide, hout] at hinv
      have hturn := copyStep_afterTurn hne hinv elapsed sink
      unfold OutputSide
      cases houtcome : (copyStep russhShellReader elapsed sink s.copy).1 with
      | more =>
          rw [houtcome] at hturn
          exact hturn
      | done result =>
          rw [houtcome] at hturn
          rintro rfl
          exact hturn
      | panicked => trivial
  | cancel hout =>
      -- the copy has ended, and its state stays
      simp only [OutputSide, hout] at hinv
      exact hinv
  | @join result out hout hnext =>
      simp only [OutputSide, hout] at hinv
      unfold RunnerState.afterJoin at hnext
      split at hnext
      · cases hnext
      all_goals
        cases hnext
        exact hinv
  | @finalClose result inputBytes outcome hout =>
      simp only [OutputSide, hout] at hinv
      cases outcome with
      | panicked => trivial
      | done | failed error => exact hinv

/-- In every run, whatever the other thread does: when the runner has returned without an error,
everything before Close has been written, the count is right and the metadata complete. -/
theorem returned_ok_delivers (hne : NoEmptyPayload messages) {events : List SshInputEvent}
    {trace : List (RunnerLabel (Nat → Bool))} {s : RunnerState RusshChannelReader}
    {outputResult : Except SshSessionError Unit} {outcome : SshSessionOutcome}
    (hrun : (splitRunner russhShellReader).run (.init events { readHalf := messages }) trace =
      some s) (hreturned : s.out = .returned outputResult (.ok outcome)) :
    s.copy.written = payload (beforeClose messages) ∧
      outcome.outputBytes = min (payload (beforeClose messages)).length u64Max ∧
      outcome.result = lastResult (beforeClose messages) := by
  have hinit : OutputSide messages (.init events { readHalf := messages }) := by
    refine ⟨⟨[], rfl, List.not_mem_nil, rfl, rfl⟩, ?_, rfl, rfl⟩
    simp [RunnerState.init]
  have hside := Machine.run_invariant (outputSide_step hne) hrun hinit
  -- the outcome is the one that the output thread has left
  have hout := (Machine.run_invariant (thread_step_inv russhShellReader) hrun
    (thread_inv_init russhShellReader events { readHalf := messages })).2
  simp only [OutputSide, hreturned] at hside
  simp only [OutputInv, hreturned] at hout
  rcases hout.of_ok with ⟨hok, hcount⟩
  have hdelivered := hside hok
  refine ⟨hdelivered.written, ?_, ?_⟩
  · rw [hcount]
    exact hdelivered.count
  · rw [hout.result_eq]
    exact hdelivered.result

end Runner

end Rssh
