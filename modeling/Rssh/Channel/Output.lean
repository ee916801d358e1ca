import Mathlib.Data.List.TakeWhile
import Rssh.Channel.Reader

/-!
# The output pump

`copy_session_to_output` drains an `SshShellReader` into a local output. The
reader is any state machine `SshShellReader ρ ε` (`ε` is what the environment
decides during one read), the output is driven by the outcome of each
`write_all`/`flush` pair. One turn of the loop is `copyStep`; the sequential pump
`copySessionToOutput` iterates it, and the concurrent runner interleaves it.

The pump's only end-of-session signal is a read of zero bytes. `drain_complete_iff`
says exactly for which message sequences that convention delivers every payload
byte and the final exit metadata: a data message with an empty payload is also a
read of zero bytes, so nothing that follows it may matter.
-/

namespace Rssh

/-! ## The pump -/

/-- What one `read` call gives back. -/
inductive ReadOutcome where
  | bytes (bytes : List UInt8)
  | failed (error : SshSessionError)
  | panicked
deriving DecidableEq, Repr

/-- The `SshShellReader` trait: a read into a buffer of the given size, and the
exit metadata seen so far. -/
structure SshShellReader (ρ ε : Type) where
  read : ρ → ε → Nat → ReadOutcome × ρ
  sessionResult : ρ → SshSessionResult

/-- What the output does with one chunk: `write_all`, then `flush`. -/
inductive SinkOutcome where
  | ok
  | writeFailed (message : String)
  | flushFailed (message : String)
  | panicked
deriving DecidableEq, Repr

/-- The pump's state: its reader, what the output has taken and the counter. -/
structure CopyState (ρ : Type) where
  reader : ρ
  written : List UInt8 := []
  outputBytes : Nat := 0
deriving DecidableEq, Repr

inductive CopyOutcome where
  | more
  | done (result : Except SshSessionError Unit)
  | panicked

/-- The size of the pump's buffer. -/
def copyBufferSize : Nat := 8192

/-- One turn of the loop of `copy_session_to_output`. A chunk counts once it is
written and flushed. -/
def copyStep {ρ ε : Type} (R : SshShellReader ρ ε) (env : ε) (sink : SinkOutcome)
    (s : CopyState ρ) : CopyOutcome × CopyState ρ :=
  match R.read s.reader env copyBufferSize with
  | (.panicked, reader) => (.panicked, { s with reader })
  | (.failed error, reader) => (.done (.error error), { s with reader })
  | (.bytes bytes, reader) =>
      if bytes.length = 0 then (.done (.ok ()), { s with reader })
      else
        match sink with
        | .panicked => (.panicked, { s with reader })
        | .writeFailed message => (.done (.error ⟨message⟩), { s with reader })
        | .flushFailed message =>
            (.done (.error ⟨message⟩), { s with reader, written := s.written ++ bytes })
        | .ok =>
            (.more,
              { reader, written := s.written ++ bytes,
                outputBytes := saturatingAdd s.outputBytes bytes.length })

/-- The output has no part in what becomes of the reader. -/
theorem copyStep_reader {ρ ε : Type} (R : SshShellReader ρ ε) (env : ε) (sink : SinkOutcome)
    (s : CopyState ρ) :
    (copyStep R env sink s).2.reader = (R.read s.reader env copyBufferSize).2 := by
  rcases hread : R.read s.reader env copyBufferSize with ⟨outcome, reader⟩
  cases outcome with
  | failed error | panicked => simp only [copyStep, hread]
  | bytes bytes =>
      simp only [copyStep, hread]
      split
      · rfl
      · cases sink <;> rfl

/-- `copy_session_to_output`; `none` when `fuel` turns do not end it. -/
def copySessionToOutput {ρ ε : Type} (R : SshShellReader ρ ε) :
    Nat → (Nat → ε) → (Nat → SinkOutcome) → CopyState ρ → Option (CopyOutcome × CopyState ρ)
  | 0, _, _, _ => none
  | fuel + 1, env, sink, s =>
      match copyStep R (env 0) (sink 0) s with
      | (.more, s') =>
          copySessionToOutput R fuel (fun i => env (i + 1)) (fun i => sink (i + 1)) s'
      | (outcome, s') => some (outcome, s')

/-- `impl SshShellReader for RusshChannelReader`; the environment says which waits
outlast the inactivity deadline. -/
def russhShellReader : SshShellReader RusshChannelReader (Nat → Bool) where
  read r elapsed capacity :=
    match r.readBlocking capacity elapsed with
    | (.error error, r') => (.failed error, r')
    | (.ok bytes, r') => (.bytes bytes, r')
  sessionResult r := r.result

/-! ## What a message sequence carries -/

namespace ChannelMsg

/-- The payload of a data or extended-data message. -/
def payload? : ChannelMsg → Option (List UInt8)
  | .data bytes => some bytes
  | .extendedData _ bytes => some bytes
  | _ => none

def exitStatus? : ChannelMsg → Option UInt32
  | .exitStatus status => some status
  | _ => none

def exitSignal? : ChannelMsg → Option SshExitSignal
  | .exitSignal signalName coreDumped errorMessage langTag =>
      some { name := signalNameText signalName, coreDumped, errorMessage, langTag }
  | _ => none

/-- The payload bytes of a message sequence, in order. -/
def payload (messages : List ChannelMsg) : List UInt8 :=
  messages.flatMap fun m => m.payload?.getD []

/-- The messages before the first Close, or all of them. -/
def beforeClose (messages : List ChannelMsg) : List ChannelMsg :=
  messages.takeWhile (· ≠ .close)

/-- The messages up to the first empty payload. -/
def beforeEmpty (messages : List ChannelMsg) : List ChannelMsg :=
  messages.takeWhile (·.payload? ≠ some [])

/-- The messages from the first empty payload on. -/
def fromEmpty (messages : List ChannelMsg) : List ChannelMsg :=
  messages.dropWhile (·.payload? ≠ some [])

/-- The last exit status and the last exit signal of a message sequence. -/
def lastResult (messages : List ChannelMsg) : SshSessionResult where
  exitStatus := (messages.filterMap exitStatus?).getLast?
  exitSignal := (messages.filterMap exitSignal?).getLast?

end ChannelMsg

open ChannelMsg

/-- The messages whose effects the pump sees: those before the first read of zero
bytes. -/
def drained (messages : List ChannelMsg) : List ChannelMsg :=
  beforeEmpty (beforeClose messages)

/-- Turns that are enough to drain the queued bytes and the messages. -/
def drainBound (r : RusshChannelReader) : Nat :=
  r.pendingRead.length + (r.readHalf.map fun m => (m.payload?.getD []).length + 1).sum

/-! ## One read of the native reader -/

section Read

variable {r : RusshChannelReader} {capacity : Nat} {elapsed : Nat → Bool}

/-- A message that is neither a payload nor Close only updates the metadata. -/
theorem applyChannelMessage_skip {m : ChannelMsg} (hpayload : m.payload? = none)
    (hclose : m ≠ .close) (result : SshSessionResult) :
    applyChannelMessage result m =
      (⟨m.exitStatus?.or result.exitStatus, m.exitSignal?.or result.exitSignal⟩, .continue_) := by
  cases m <;> simp_all [applyChannelMessage, payload?, exitStatus?, exitSignal?]

theorem applyChannelMessage_payload {m : ChannelMsg} {bytes : List UInt8}
    (hpayload : m.payload? = some bytes) (result : SshSessionResult) :
    applyChannelMessage result m = (result, .data bytes) := by
  cases m <;> simp_all [applyChannelMessage, payload?]

/-- Without an inactivity timeout it does not matter when messages arrive. -/
theorem readLoop_no_deadline (messages : List ChannelMsg) (wake : Nat → Wake)
    (r : RusshChannelReader) (htimeout : r.inactivityTimeout = none)
    (hwake : ∀ i, wake i ≠ .cancelled) :
    RusshChannelReader.readLoop capacity messages wake r =
      RusshChannelReader.readLoop capacity messages (fun _ => .message) r := by
  induction messages generalizing wake r with
  | nil =>
      have h0 := hwake 0
      unfold RusshChannelReader.readLoop
      cases hw : wake 0 <;> simp_all
  | cons m rest ih =>
      have h0 := hwake 0
      unfold RusshChannelReader.readLoop
      have hrest : ∀ result : SshSessionResult,
          RusshChannelReader.readLoop capacity rest (fun i => wake (i + 1)) { r with result } =
            RusshChannelReader.readLoop capacity rest (fun _ => .message) { r with result } :=
        fun result => ih _ _ htimeout (fun i => hwake (i + 1))
      cases hw : wake 0 <;> simp_all

/-- With nothing queued, a read of an open reader without deadline is its message
loop. -/
theorem readBlocking_loop (hcap : 0 < capacity) (hpending : r.pendingRead = [])
    (hopen : r.finished = false) (htimeout : r.inactivityTimeout = none) :
    r.readBlocking capacity elapsed =
      RusshChannelReader.uncancelled
        (RusshChannelReader.readLoop capacity r.readHalf (fun _ => .message) r) := by
  unfold RusshChannelReader.readBlocking
  rw [RusshChannelReader.readCancellableBlocking_loop hcap hpending hopen,
    readLoop_no_deadline _ _ _ htimeout]
  intro i
  cases elapsed i <;> simp

/-- The loop works on the list it is given; the reader's own copy is overwritten on
every way out. -/
theorem readLoop_readHalf (messages other : List ChannelMsg) (wake : Nat → Wake)
    (r : RusshChannelReader) :
    RusshChannelReader.readLoop capacity messages wake { r with readHalf := other } =
      RusshChannelReader.readLoop capacity messages wake r := by
  induction messages generalizing wake r with
  | nil => simp [RusshChannelReader.readLoop]
  | cons m rest ih =>
      have hrest : ∀ result : SshSessionResult,
          RusshChannelReader.readLoop capacity rest (fun i => wake (i + 1))
              { r with readHalf := other, result } =
            RusshChannelReader.readLoop capacity rest (fun i => wake (i + 1))
              { r with result } :=
        fun result => ih _ { r with result }
      simp [RusshChannelReader.readLoop, RusshChannelReader.queueReadBytes,
        RusshChannelReader.fillFromPending, hrest]

/-- A read takes the first bytes of a message, and the others are kept for the next one. -/
theorem read_payload {m : ChannelMsg} {rest : List ChannelMsg} {bytes : List UInt8}
    (hcap : 0 < capacity) (hpending : r.pendingRead = []) (hopen : r.finished = false)
    (htimeout : r.inactivityTimeout = none) (hhalf : r.readHalf = m :: rest)
    (hm : m.payload? = some bytes) :
    russhShellReader.read r elapsed capacity =
      (.bytes (bytes.take capacity),
        { r with readHalf := rest, pendingRead := bytes.drop capacity }) := by
  simp [russhShellReader, readBlocking_loop hcap hpending hopen htimeout, hhalf,
    RusshChannelReader.readLoop, RusshChannelReader.uncancelled, htimeout,
    applyChannelMessage_payload hm, RusshChannelReader.queueReadBytes,
    RusshChannelReader.fillFromPending, hpending]

/-- Close and the end of the channel finish the reader. -/
theorem read_end (hcap : 0 < capacity) (hpending : r.pendingRead = [])
    (hopen : r.finished = false) (htimeout : r.inactivityTimeout = none)
    (hend : r.readHalf = [] ∨ ∃ rest, r.readHalf = .close :: rest) :
    russhShellReader.read r elapsed capacity =
      (.bytes [], { r with readHalf := r.readHalf.tail, finished := true }) := by
  rcases hend with hnil | ⟨rest, hclose⟩
  · simp [russhShellReader, readBlocking_loop hcap hpending hopen htimeout, hnil,
      RusshChannelReader.readLoop, RusshChannelReader.uncancelled, htimeout]
  · simp [russhShellReader, readBlocking_loop hcap hpending hopen htimeout, hclose,
      RusshChannelReader.readLoop, RusshChannelReader.uncancelled, htimeout, applyChannelMessage]

/-- Any other message is absorbed by the loop: the read goes on as if the reader
had already seen it. -/
theorem read_skip {m : ChannelMsg} {rest : List ChannelMsg} (hcap : 0 < capacity)
    (hpending : r.pendingRead = []) (hopen : r.finished = false)
    (htimeout : r.inactivityTimeout = none) (hhalf : r.readHalf = m :: rest)
    (hpayload : m.payload? = none) (hclose : m ≠ .close) :
    russhShellReader.read r elapsed capacity =
      russhShellReader.read
        { r with readHalf := rest,
                 result := ⟨m.exitStatus?.or r.result.exitStatus,
                            m.exitSignal?.or r.result.exitSignal⟩ } elapsed capacity := by
  have hloop : RusshChannelReader.readLoop capacity (m :: rest) (fun _ => .message) r =
      RusshChannelReader.readLoop capacity rest (fun _ => .message)
        { r with result := ⟨m.exitStatus?.or r.result.exitStatus,
                            m.exitSignal?.or r.result.exitSignal⟩ } := by
    simp [RusshChannelReader.readLoop, htimeout, applyChannelMessage_skip hpayload hclose]
  simp only [russhShellReader]
  rw [readBlocking_loop hcap hpending hopen htimeout, hhalf, hloop,
    readBlocking_loop (by exact hcap) (by exact hpending) (by exact hopen) (by exact htimeout)]
  rw [← readLoop_readHalf rest rest]

end Read

/-! ## Draining a message sequence -/

/-- The exit metadata after a message sequence. -/
def resultAfter (result : SshSessionResult) (messages : List ChannelMsg) : SshSessionResult where
  exitStatus := (lastResult messages).exitStatus.or result.exitStatus
  exitSignal := (lastResult messages).exitSignal.or result.exitSignal

/-- The first message sets its results before the others follow. -/
theorem resultAfter_cons (result : SshSessionResult) (m : ChannelMsg)
    (messages : List ChannelMsg) :
    resultAfter result (m :: messages) =
      resultAfter ⟨m.exitStatus?.or result.exitStatus, m.exitSignal?.or result.exitSignal⟩
        messages := by
  have hlast : ∀ {α : Type} (f : ChannelMsg → Option α),
      ((m :: messages).filterMap f).getLast? = ((messages.filterMap f).getLast?).or (f m) := by
    intro α f
    cases hf : f m with
    | none => simp [List.filterMap_cons_none hf]
    | some a =>
        rw [List.filterMap_cons_some hf, List.getLast?_cons]
        cases (messages.filterMap f).getLast? <;> rfl
  simp [resultAfter, lastResult, hlast, Option.or_assoc]

theorem drained_cons {m : ChannelMsg} {rest : List ChannelMsg} (hclose : m ≠ .close)
    (hempty : m.payload? ≠ some []) : drained (m :: rest) = m :: drained rest := by
  simp [drained, beforeClose, beforeEmpty, hclose, hempty]

/-- CLOSE and an empty message end the drain. -/
theorem drained_stop {m : ChannelMsg} {rest : List ChannelMsg}
    (hstop : m = .close ∨ m.payload? = some []) : drained (m :: rest) = [] := by
  rcases hstop with rfl | hempty
  · simp [drained, beforeClose, beforeEmpty]
  · have hclose : m ≠ .close := by
      rintro rfl
      simp [payload?] at hempty
    simp [drained, beforeClose, beforeEmpty, hclose, hempty]

theorem saturatingAdd_add (a b c : Nat) :
    saturatingAdd (saturatingAdd a b) c = saturatingAdd a (b + c) := by
  unfold saturatingAdd
  omega

/-- One turn writes a chunk and counts it. -/
theorem copySessionToOutput_chunk {ρ ε : Type} {R : SshShellReader ρ ε} {fuel : Nat}
    {env : Nat → ε} {s : CopyState ρ} {bytes : List UInt8} {reader : ρ}
    (hread : R.read s.reader (env 0) copyBufferSize = (.bytes bytes, reader))
    (hbytes : bytes ≠ []) :
    copySessionToOutput R (fuel + 1) env (fun _ => .ok) s =
      copySessionToOutput R fuel (fun i => env (i + 1)) (fun _ => .ok)
        { reader, written := s.written ++ bytes,
          outputBytes := saturatingAdd s.outputBytes bytes.length } := by
  simp [copySessionToOutput, copyStep, hread, hbytes]

/-- An empty read ends the copy with success. -/
theorem copySessionToOutput_stop {ρ ε : Type} {R : SshShellReader ρ ε} {fuel : Nat}
    {env : Nat → ε} {sink : Nat → SinkOutcome} {s : CopyState ρ} {reader : ρ}
    (hread : R.read s.reader (env 0) copyBufferSize = (.bytes [], reader)) :
    copySessionToOutput R (fuel + 1) env sink s = some (.done (.ok ()), { s with reader }) := by
  simp [copySessionToOutput, copyStep, hread]

/-- Two readers that answer the next read alike are drained alike. -/
theorem copySessionToOutput_congr {ρ ε : Type} {R : SshShellReader ρ ε} {fuel : Nat}
    {env : Nat → ε} {sink : Nat → SinkOutcome} {s : CopyState ρ} {reader : ρ}
    (hread : ∀ e, R.read s.reader e copyBufferSize = R.read reader e copyBufferSize) :
    copySessionToOutput R fuel env sink s =
      copySessionToOutput R fuel env sink { s with reader } := by
  cases fuel with
  | zero => rfl
  | succ fuel =>
      have hstep : copyStep R (env 0) (sink 0) s =
          copyStep R (env 0) (sink 0) { s with reader } := by
        simp only [copyStep, hread]
      simp only [copySessionToOutput, hstep]

/-- The pump ended in `out` after delivering the queued bytes and the payloads of
the drained messages. -/
def DrainedTo (s : CopyState RusshChannelReader)
    (out : Option (CopyOutcome × CopyState RusshChannelReader)) : Prop :=
  ∃ reader : RusshChannelReader,
    out = some (.done (.ok ()),
      { reader,
        written := s.written ++ (s.reader.pendingRead ++ payload (drained s.reader.readHalf)),
        outputBytes := saturatingAdd s.outputBytes
          (s.reader.pendingRead ++ payload (drained s.reader.readHalf)).length }) ∧
    reader.result = resultAfter s.reader.result (drained s.reader.readHalf)

/-- A read of zero bytes ends the pump. -/
theorem drainedTo_of_stop {fuel : Nat} {env : Nat → Nat → Bool}
    {s : CopyState RusshChannelReader} {reader : RusshChannelReader}
    (hread : russhShellReader.read s.reader (env 0) copyBufferSize = (.bytes [], reader))
    (hresult : reader.result = s.reader.result) (hpending : s.reader.pendingRead = [])
    (hdrained : drained s.reader.readHalf = []) (hcount : s.outputBytes ≤ u64Max) :
    DrainedTo s (copySessionToOutput russhShellReader (fuel + 1) env (fun _ => .ok) s) := by
  refine ⟨reader, ?_, ?_⟩
  · have hzero : saturatingAdd s.outputBytes 0 = s.outputBytes := by
      simp only [saturatingAdd]
      omega
    rw [copySessionToOutput_stop hread]
    simp [hpending, hdrained, payload, hzero]
  · simp [hresult, hdrained, resultAfter, lastResult]

/-- A chunk that leaves the reader with the rest of the same stream uses one turn. -/
theorem drainedTo_of_chunk {fuel : Nat} {env : Nat → Nat → Bool}
    {s : CopyState RusshChannelReader} {bytes : List UInt8} {reader : RusshChannelReader}
    (hread : russhShellReader.read s.reader (env 0) copyBufferSize = (.bytes bytes, reader))
    (hbytes : bytes ≠ []) (hresult : ∀ messages, resultAfter reader.result messages =
      resultAfter s.reader.result messages)
    (hstream : s.reader.pendingRead ++ payload (drained s.reader.readHalf) =
      bytes ++ (reader.pendingRead ++ payload (drained reader.readHalf)))
    (hafter : resultAfter s.reader.result (drained s.reader.readHalf) =
      resultAfter s.reader.result (drained reader.readHalf))
    (ih : ∀ s', s'.reader = reader → s'.outputBytes ≤ u64Max →
      DrainedTo s' (copySessionToOutput russhShellReader fuel (fun i => env (i + 1))
        (fun _ => .ok) s')) :
    DrainedTo s (copySessionToOutput russhShellReader (fuel + 1) env (fun _ => .ok) s) := by
  rw [copySessionToOutput_chunk hread hbytes]
  obtain ⟨last, hout, hlast⟩ :=
    ih { reader, written := s.written ++ bytes,
         outputBytes := saturatingAdd s.outputBytes bytes.length } rfl (Nat.min_le_right _ _)
  refine ⟨last, ?_, ?_⟩
  · rw [hout, hstream]
    simp [saturatingAdd_add, List.append_assoc]
  · rw [hlast, hresult, hafter]

/-- The pump delivers the queued bytes and the payloads up to the first read of
zero bytes, and then ends. The induction is on a bound of the remaining work: a
chunk uses one turn, a metadata message none. -/
theorem copySessionToOutput_drains (k : Nat) :
    ∀ (fuel : Nat) (env : Nat → Nat → Bool) (s : CopyState RusshChannelReader),
      drainBound s.reader ≤ k → k < fuel → s.reader.finished = false →
      s.reader.inactivityTimeout = none → s.outputBytes ≤ u64Max →
      DrainedTo s (copySessionToOutput russhShellReader fuel env (fun _ => .ok) s) := by
  have hcap : 0 < copyBufferSize := by decide
  induction k using Nat.strong_induction_on with
  | _ k ih =>
    intro fuel env s hbound hfuel hopen htimeout hcount
    obtain ⟨n, rfl⟩ : ∃ n, fuel = n + 1 := ⟨fuel - 1, by omega⟩
    by_cases hpending : s.reader.pendingRead = []
    swap
    · -- queued bytes: one chunk of them
      have hpos : 0 < s.reader.pendingRead.length := List.length_pos_iff.mpr hpending
      have hread : russhShellReader.read s.reader (env 0) copyBufferSize =
          (.bytes (s.reader.pendingRead.take copyBufferSize),
            { s.reader with pendingRead := s.reader.pendingRead.drop copyBufferSize }) := by
        simp only [russhShellReader, RusshChannelReader.readBlocking_pending hcap hpending]
      refine drainedTo_of_chunk hread ?_ (fun _ => rfl) ?_ rfl ?_
      · intro hnil
        rcases List.take_eq_nil_iff.mp hnil with h | h
        · omega
        · exact hpending h
      · simp [← List.append_assoc]
      · intro s' hs' hcount'
        refine ih (k - 1) ?_ n _ s' ?_ ?_ ?_ ?_ hcount'
        · unfold drainBound at hbound
          omega
        · simp only [hs', drainBound, List.length_drop] at hbound ⊢
          omega
        · unfold drainBound at hbound
          omega
        · simp [hs', hopen]
        · simp [hs', htimeout]
    -- nothing is queued: the next message decides
    cases hhalf : s.reader.readHalf with
    | nil =>
        exact drainedTo_of_stop (read_end hcap hpending hopen htimeout (Or.inl hhalf)) rfl hpending
          (by simp [hhalf, drained, beforeClose, beforeEmpty]) hcount
    | cons m rest =>
        have hwork : drainBound s.reader = (m.payload?.getD []).length + 1 +
            drainBound { s.reader with readHalf := rest, pendingRead := [] } := by
          simp [drainBound, hhalf, hpending]
        by_cases hclose : m = .close
        · subst hclose
          exact drainedTo_of_stop
            (read_end hcap hpending hopen htimeout (Or.inr ⟨rest, hhalf⟩)) rfl hpending
            (by rw [hhalf]; exact drained_stop (Or.inl rfl)) hcount
        cases hm : m.payload? with
        | none =>
            -- a metadata message: the next read is the one of the reader past it
            have hne : m.payload? ≠ some [] := by simp [hm]
            rw [copySessionToOutput_congr
              (fun e => read_skip hcap hpending hopen htimeout hhalf hm hclose)]
            obtain ⟨last, hout, hlast⟩ :=
              ih (k - 1) (by omega) (n + 1) env
                { s with reader :=
                  { s.reader with
                    readHalf := rest,
                    result := ⟨m.exitStatus?.or s.reader.result.exitStatus,
                               m.exitSignal?.or s.reader.result.exitSignal⟩ } }
                (by simp only [drainBound, hpending] at hwork hbound ⊢; omega) (by omega)
                hopen htimeout hcount
            refine ⟨last, ?_, ?_⟩
            · rw [hout, hhalf, drained_cons hclose hne]
              simp [payload, hm]
            · rw [hlast, hhalf, drained_cons hclose hne, resultAfter_cons]
        | some bytes =>
            have hread : russhShellReader.read s.reader (env 0) copyBufferSize =
                (.bytes (bytes.take copyBufferSize),
                  { s.reader with
                    readHalf := rest, pendingRead := bytes.drop copyBufferSize }) :=
              read_payload hcap hpending hopen htimeout hhalf hm
            by_cases hbytes : bytes = []
            · -- an empty payload is read as zero bytes
              subst hbytes
              rw [List.take_nil, List.drop_nil] at hread
              exact drainedTo_of_stop hread rfl hpending
                (by rw [hhalf]; exact drained_stop (Or.inr hm)) hcount
            · have hpos : 0 < bytes.length := List.length_pos_iff.mpr hbytes
              have hne : m.payload? ≠ some [] := by simp [hm, hbytes]
              have hmeta : m.exitStatus? = none ∧ m.exitSignal? = none := by
                cases m <;> simp_all [payload?, exitStatus?, exitSignal?]
              refine drainedTo_of_chunk hread ?_ (fun _ => rfl) ?_ ?_ ?_
              · intro hnil
                rcases List.take_eq_nil_iff.mp hnil with h | h
                · omega
                · exact hbytes h
              · rw [hhalf, drained_cons hclose hne]
                simp [payload, hm, hpending, ← List.append_assoc]
              · rw [hhalf, drained_cons hclose hne, resultAfter_cons]
                simp [hmeta]
              · intro s' hs' hcount'
                refine ih (k - 1) (by omega) n _ s' ?_ (by omega) ?_ ?_ hcount'
                · simp only [hs', drainBound, hm, Option.getD_some, List.length_drop,
                    List.length_nil] at hwork hbound ⊢
                  omega
                · simp [hs', hopen]
                · simp [hs', htimeout]

/-! ## When the drain is complete -/

/-- Draining `messages` into an output that never fails ends without error, with
every payload byte before the first Close in the output, their exact count, and
the last exit metadata in the reader. -/
def DeliversSession (messages : List ChannelMsg) : Prop :=
  ∀ (fuel : Nat) (env : Nat → Nat → Bool), drainBound { readHalf := messages } < fuel →
    ∃ s : CopyState RusshChannelReader,
      copySessionToOutput russhShellReader fuel env (fun _ => .ok)
          { reader := { readHalf := messages } } = some (.done (.ok ()), s) ∧
      s.written = payload (beforeClose messages) ∧
      s.outputBytes = (payload (beforeClose messages)).length ∧
      russhShellReader.sessionResult s.reader = lastResult (beforeClose messages)

/-- What a drain of the native reader yields, whatever the messages are. -/
theorem drain_outcome (messages : List ChannelMsg) (fuel : Nat) (env : Nat → Nat → Bool)
    (hfuel : drainBound { readHalf := messages } < fuel) :
    ∃ reader : RusshChannelReader,
      copySessionToOutput russhShellReader fuel env (fun _ => .ok)
          { reader := { readHalf := messages } } =
        some (.done (.ok ()),
          { reader, written := payload (drained messages),
            outputBytes := saturatingAdd 0 (payload (drained messages)).length }) ∧
      reader.result = lastResult (drained messages) := by
  obtain ⟨reader, hout, hresult⟩ :=
    copySessionToOutput_drains _ fuel env { reader := { readHalf := messages } } le_rfl hfuel
      rfl rfl (Nat.zero_le _)
  refine ⟨reader, ?_, ?_⟩
  · simpa using hout
  · simpa [resultAfter] using hresult

theorem beforeEmpty_append_fromEmpty (messages : List ChannelMsg) :
    beforeEmpty messages ++ fromEmpty messages = messages :=
  List.takeWhile_append_dropWhile

theorem payload_append (xs ys : List ChannelMsg) :
    payload (xs ++ ys) = payload xs ++ payload ys := by
  simp [payload]

/-- The last value of a split sequence is unchanged by its second half iff that
half has none, or ends in the same one. -/
theorem getLast?_filterMap_append_eq_iff {α : Type} (f : ChannelMsg → Option α)
    (xs ys : List ChannelMsg) :
    (xs.filterMap f).getLast? = ((xs ++ ys).filterMap f).getLast? ↔
      (ys.filterMap f).getLast? = none ∨
        (ys.filterMap f).getLast? = (xs.filterMap f).getLast? := by
  rw [List.filterMap_append, List.getLast?_append]
  cases (ys.filterMap f).getLast? with
  | none => simp
  | some a =>
      simp only [Option.some_or, reduceCtorEq, false_or]
      exact eq_comm

/-- The drain is complete exactly when, up to the first Close, nothing that
matters follows an empty payload: no payload byte, and no exit status or signal
other than the last one already seen; and the count fits its counter. -/
theorem drain_complete_iff (messages : List ChannelMsg) :
    DeliversSession messages ↔
      (∀ m ∈ fromEmpty (beforeClose messages), m.payload?.getD [] = []) ∧
      ((lastResult (fromEmpty (beforeClose messages))).exitStatus = none ∨
        (lastResult (fromEmpty (beforeClose messages))).exitStatus =
          (lastResult (drained messages)).exitStatus) ∧
      ((lastResult (fromEmpty (beforeClose messages))).exitSignal = none ∨
        (lastResult (fromEmpty (beforeClose messages))).exitSignal =
          (lastResult (drained messages)).exitSignal) ∧
      (payload (beforeClose messages)).length < 2 ^ 64 := by
  have hsplit : drained messages ++ fromEmpty (beforeClose messages) = beforeClose messages :=
    beforeEmpty_append_fromEmpty _
  -- the bytes agree when none follow the empty message
  have hbytes : payload (drained messages) = payload (beforeClose messages) ↔
      ∀ m ∈ fromEmpty (beforeClose messages), m.payload?.getD [] = [] := by
    have hcat : payload (beforeClose messages) =
        payload (drained messages) ++ payload (fromEmpty (beforeClose messages)) := by
      rw [← payload_append, hsplit]
    rw [hcat]
    simp [payload]
  -- and a result agrees when none follows, or the same one
  have hstatus := getLast?_filterMap_append_eq_iff exitStatus? (drained messages)
    (fromEmpty (beforeClose messages))
  have hsignal := getLast?_filterMap_append_eq_iff exitSignal? (drained messages)
    (fromEmpty (beforeClose messages))
  rw [hsplit] at hstatus hsignal
  constructor
  · intro h
    rcases drain_outcome messages _ (fun _ _ => false) (Nat.lt_succ_self _) with
      ⟨reader, hout, hresult⟩
    rcases h _ (fun _ _ => false) (Nat.lt_succ_self _) with ⟨s, hs, hwritten, hcount, hmeta⟩
    rw [hout] at hs
    obtain rfl : _ = s := (Prod.mk.inj (Option.some.inj hs)).2
    have hreader : lastResult (drained messages) = lastResult (beforeClose messages) :=
      hresult.symm.trans hmeta
    refine ⟨hbytes.mp hwritten, hstatus.mp ?_, hsignal.mp ?_, ?_⟩
    · exact congrArg SshSessionResult.exitStatus hreader
    · exact congrArg SshSessionResult.exitSignal hreader
    · have hlen : (payload (drained messages)).length = (payload (beforeClose messages)).length :=
        congrArg List.length hwritten
      simp only [saturatingAdd, u64Max] at hcount
      omega
  · rintro ⟨hempty, hst, hsg, hlen⟩ fuel env hfuel
    rcases drain_outcome messages fuel env hfuel with ⟨reader, hout, hresult⟩
    refine ⟨_, hout, hbytes.mpr hempty, ?_, ?_⟩
    · have hpayload := hbytes.mpr hempty
      simp only [hpayload, saturatingAdd, u64Max]
      omega
    · rw [show russhShellReader.sessionResult reader = reader.result from rfl, hresult]
      have h1 := hstatus.mpr hst
      have h2 := hsignal.mpr hsg
      simp only [lastResult, h1, h2]

/-- An empty data message in the middle of a session: the output after it and the
exit status never reach the caller, and the pump reports success. -/
theorem drain_stops_at_empty_payload :
    ¬ DeliversSession [.data [104, 105], .data [], .data [33], .exitStatus 3, .close] := by
  intro h
  rcases h 20 (fun _ _ => false) (by decide) with ⟨s, hs, hwritten, -, -⟩
  have hrun : copySessionToOutput russhShellReader 20 (fun _ _ => false) (fun _ => .ok)
      { reader :=
        { readHalf := [.data [104, 105], .data [], .data [33], .exitStatus 3, .close] } } =
      some (.done (.ok ()),
        { reader := { readHalf := [.data [33], .exitStatus 3, .close] },
          written := [104, 105], outputBytes := 2 }) := by
    rfl
  rw [hrun] at hs
  obtain rfl : _ = s := (Prod.mk.inj (Option.some.inj hs)).2
  revert hwritten
  decide

/-! ## What a reader has consumed -/

/-- The reader has taken the first part of the messages off its read half, and its
metadata is what that part carries. -/
def Consumes (messages : List ChannelMsg) (r : RusshChannelReader) : Prop :=
  ∃ consumed, messages = consumed ++ r.readHalf ∧ r.result = lastResult consumed

theorem consumes_init (messages : List ChannelMsg) (inactivityTimeout : Option Duration) :
    Consumes messages { readHalf := messages, inactivityTimeout } :=
  ⟨[], rfl, rfl⟩

/-- Each message overwrites what it reports and leaves the rest. -/
theorem applyChannelMessage_lastResult (consumed : List ChannelMsg) (m : ChannelMsg) :
    (applyChannelMessage (lastResult consumed) m).1 = lastResult (consumed ++ [m]) := by
  cases m <;> simp [applyChannelMessage, lastResult, exitStatus?, exitSignal?]

/-- What a read consumes is the start of what is left, and the result is theirs. -/
theorem readLoop_consumes {all messages consumed : List ChannelMsg} {capacity : Nat}
    {wake : Nat → Wake} {r : RusshChannelReader} (hall : all = consumed ++ messages)
    (hresult : r.result = lastResult consumed) :
    Consumes all (RusshChannelReader.readLoop capacity messages wake r).2 := by
  induction messages generalizing consumed wake r with
  | nil =>
      -- the reader is woken by a timeout or a cancellation, or the channel has ended
      unfold RusshChannelReader.readLoop
      split <;> exact ⟨consumed, hall, hresult⟩
  | cons m rest ih =>
      have happly := applyChannelMessage_lastResult consumed m
      have hnext : all = (consumed ++ [m]) ++ rest := by simp [hall]
      unfold RusshChannelReader.readLoop
      split
      · exact ⟨consumed, hall, hresult⟩
      · exact ⟨consumed, hall, hresult⟩
      · rw [hresult]
        rcases hact : applyChannelMessage (lastResult consumed) m with ⟨result, action⟩
        rw [hact] at happly
        cases action with
        | data bytes | finished => exact ⟨consumed ++ [m], hnext, happly⟩
        | continue_ => exact ih hnext happly

/-- A read of the reader consumes messages in their order. -/
theorem readCancellableBlocking_consumes {messages : List ChannelMsg} {r : RusshChannelReader}
    (h : Consumes messages r) (capacity : Nat) (wake : Nat → Wake) :
    Consumes messages (r.readCancellableBlocking capacity wake).2 := by
  rcases h with ⟨consumed, hall, hresult⟩
  simp only [RusshChannelReader.readCancellableBlocking]
  split
  · exact ⟨consumed, hall, hresult⟩
  · split
    · exact ⟨consumed, hall, hresult⟩
    · split
      · exact ⟨consumed, hall, hresult⟩
      · exact readLoop_consumes hall hresult

theorem uncancelled_snd (read : Except SshSessionError (Option (List UInt8)) × RusshChannelReader) :
    (RusshChannelReader.uncancelled read).2 = read.2 := by
  rcases read with ⟨_ | _ | _, r⟩ <;> rfl

/-- A read, whatever it returns, keeps the metadata in step with what was consumed. -/
theorem russhShellReader_consumes {messages : List ChannelMsg} {r : RusshChannelReader}
    (h : Consumes messages r) (elapsed : Nat → Bool) (capacity : Nat) :
    Consumes messages (russhShellReader.read r elapsed capacity).2 := by
  have hread : (russhShellReader.read r elapsed capacity).2 =
      (r.readBlocking capacity elapsed).2 := by
    simp only [russhShellReader]
    split <;> simp_all
  rw [hread, RusshChannelReader.readBlocking, uncancelled_snd]
  exact readCancellableBlocking_consumes h capacity _

end Rssh
