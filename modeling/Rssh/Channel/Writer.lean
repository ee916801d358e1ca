import Mathlib.Data.List.Pairwise
import Mathlib.Data.List.Induction
import Rssh.Types

/-!
# The channel writer

`RusshChannelWriter` guards the write half of a channel with two lifecycle flags.
The writer keeps a log of everything it hands to the transport, with the outcome;
the outcome of each transport operation (success, failure, or losing the `select`
to the cancellation flag) is an argument of the call.

Every public entry point (`SshShellWriter`, `io::Write`, `SshChannel`) is a
`WriterCall`. `call_cases` says once what a call can do to the log and the flags;
`WriterInv` ties the flags to the log, and `writer_lifecycle` states what holds of
the log after any sequence of calls.
-/

namespace Rssh

/-! ## Lifecycle flags -/

inductive RusshWriterAction where
  | execute
  | alreadyDone
deriving DecidableEq, Repr

structure RusshWriterLifecycle where
  inputFinished : Bool := false
  closed : Bool := false
deriving DecidableEq, Repr

namespace RusshWriterLifecycle

def ensureWriteAllowed (l : RusshWriterLifecycle) : Except SshSessionError Unit :=
  if l.closed then .error ⟨"SSH channel is closed"⟩
  else if l.inputFinished then .error ⟨"SSH channel input is already finished"⟩
  else .ok ()

def prepareFinishInput (l : RusshWriterLifecycle) : RusshWriterAction :=
  if l.closed || l.inputFinished then .alreadyDone else .execute

def markInputFinished (l : RusshWriterLifecycle) : RusshWriterLifecycle :=
  { l with inputFinished := true }

def prepareClose (l : RusshWriterLifecycle) : RusshWriterAction :=
  if l.closed then .alreadyDone else .execute

def markClosed (_ : RusshWriterLifecycle) : RusshWriterLifecycle :=
  { inputFinished := true, closed := true }

end RusshWriterLifecycle

/-! ## Transport operations -/

/-- What the writer asks of russh: `keepalive` goes to the connection handle, the
others to the channel's write half. -/
inductive TransportOp where
  | data (bytes : List UInt8)
  | eof
  | close
  | windowChange (columns rows pixelWidth pixelHeight : UInt32)
  | keepalive (wantReply : Bool)
deriving DecidableEq, Repr

def TransportOp.isData : TransportOp → Bool
  | .data _ => true
  | _ => false

/-- Everything but the keepalive is a message of the channel. -/
def TransportOp.channelScoped : TransportOp → Bool
  | .keepalive _ => false
  | _ => true

inductive TransportOutcome where
  | succeeded
  | failed (message : String)
  | cancelled
deriving DecidableEq, Repr

/-- The outcome of an awaited transport operation. -/
def TransportOutcome.ofResult : Except String Unit → TransportOutcome
  | .ok () => .succeeded
  | .error message => .failed message

structure RusshChannelWriter where
  lifecycle : RusshWriterLifecycle := {}
  transport : List (TransportOp × TransportOutcome) := []
deriving DecidableEq, Repr

namespace RusshChannelWriter

/-- Hand an operation to the transport. -/
def perform (w : RusshChannelWriter) (op : TransportOp) (outcome : TransportOutcome) :
    RusshChannelWriter :=
  { w with transport := w.transport ++ [(op, outcome)] }

/-- An operation awaited to its end, with the prefix of its error text. -/
def blockOn (w : RusshChannelWriter) (op : TransportOp) (context : String)
    (result : Except String Unit) : Except SshSessionError Unit × RusshChannelWriter :=
  (result.mapError fun message => ⟨context ++ message⟩, w.perform op (.ofResult result))

/-- An operation raced against the cancellation flag; `none` when the flag wins. -/
def blockOnSelect (w : RusshChannelWriter) (op : TransportOp) (context : String) :
    Option (Except String Unit) → Except SshSessionError (Option Unit) × RusshChannelWriter
  | none => (.ok none, w.perform op .cancelled)
  | some result =>
      let (outcome, w') := w.blockOn op context result
      (outcome.map some, w')

def writeBlocking (w : RusshChannelWriter) (bytes : List UInt8) (result : Except String Unit) :
    Except SshSessionError Nat × RusshChannelWriter :=
  match w.lifecycle.ensureWriteAllowed with
  | .error error => (.error error, w)
  | .ok () =>
      let (outcome, w') := w.blockOn (.data bytes) "SSH channel write failed: " result
      (outcome.map fun _ => bytes.length, w')

def writeCancellableBlocking (w : RusshChannelWriter) (bytes : List UInt8) (cancelled : Bool)
    (result : Option (Except String Unit)) :
    Except SshSessionError (Option Nat) × RusshChannelWriter :=
  match w.lifecycle.ensureWriteAllowed with
  | .error error => (.error error, w)
  | .ok () =>
      if cancelled then (.ok none, w)
      else
        let (outcome, w') := w.blockOnSelect (.data bytes) "SSH channel write failed: " result
        (outcome.map fun done => done.map fun _ => bytes.length, w')

/-- The window-change request for a size, without pixel dimensions. -/
def windowChange (size : TerminalSize) : TransportOp :=
  .windowChange size.columns.toUInt32 size.rows.toUInt32 0 0

def resizePty (w : RusshChannelWriter) (size : TerminalSize) (result : Except String Unit) :
    Except SshSessionError Unit × RusshChannelWriter :=
  w.blockOn (windowChange size) "SSH PTY resize failed: " result

def resizeCancellableBlocking (w : RusshChannelWriter) (size : TerminalSize) (cancelled : Bool)
    (result : Option (Except String Unit)) :
    Except SshSessionError (Option Unit) × RusshChannelWriter :=
  if cancelled then (.ok none, w)
  else w.blockOnSelect (windowChange size) "SSH PTY resize failed: " result

def sendKeepalive (w : RusshChannelWriter) (result : Except String Unit) :
    Except SshSessionError Unit × RusshChannelWriter :=
  w.blockOn (.keepalive false) "SSH keepalive failed: " result

def closeChannel (w : RusshChannelWriter) (result : Except String Unit) :
    Except SshSessionError Unit × RusshChannelWriter :=
  match w.lifecycle.prepareClose with
  | .alreadyDone => (.ok (), w)
  | .execute =>
      match w.blockOn .close "SSH channel close failed: " result with
      -- the flags move only after the transport has succeeded
      | (.error error, w') => (.error error, w')
      | (.ok (), w') => (.ok (), { w' with lifecycle := w'.lifecycle.markClosed })

def finishInputBlocking (w : RusshChannelWriter) (result : Except String Unit) :
    Except SshSessionError Unit × RusshChannelWriter :=
  match w.lifecycle.prepareFinishInput with
  | .alreadyDone => (.ok (), w)
  | .execute =>
      match w.blockOn .eof "SSH channel EOF failed: " result with
      | (.error error, w') => (.error error, w')
      | (.ok (), w') => (.ok (), { w' with lifecycle := w'.lifecycle.markInputFinished })

end RusshChannelWriter

/-! ## Entry points -/

/-- A public call, with what the transport does during it. -/
inductive WriterCall where
  -- `impl SshShellWriter for RusshChannelWriter`
  | write (bytes : List UInt8) (result : Except String Unit)
  | writeCancellable (bytes : List UInt8) (cancelled : Bool)
      (result : Option (Except String Unit))
  | resize (size : TerminalSize) (result : Except String Unit)
  | resizeCancellable (size : TerminalSize) (cancelled : Bool)
      (result : Option (Except String Unit))
  | keepalive (result : Except String Unit)
  | finishInput (result : Except String Unit)
  | close (result : Except String Unit)
  -- `impl Write for RusshChannelWriter`
  | ioWrite (bytes : List UInt8) (result : Except String Unit)
  | ioFlush
  -- `impl SshChannel for RusshSshChannel`
  | writeChannel (bytes : List UInt8) (result : Except String Unit)
  | resizePty (size : TerminalSize) (result : Except String Unit)
  | sendKeepalive (result : Except String Unit)
  | closeChannel (result : Except String Unit)

/-- What a public call answers when it does not fail. -/
inductive WriterReply where
  | done
  | count (n : Nat)
  | cancelled
deriving DecidableEq, Repr

/-- The answer of a call that returns nothing, a byte count, or either unless it
lost to cancellation. -/
def WriterReply.ofUnit : Except SshSessionError Unit → Except SshSessionError WriterReply :=
  Except.map fun _ => .done

def WriterReply.ofCount : Except SshSessionError Nat → Except SshSessionError WriterReply :=
  Except.map .count

def WriterReply.ofOptionUnit :
    Except SshSessionError (Option Unit) → Except SshSessionError WriterReply :=
  Except.map fun done => done.elim .cancelled fun _ => .done

def WriterReply.ofOptionCount :
    Except SshSessionError (Option Nat) → Except SshSessionError WriterReply :=
  Except.map fun count => count.elim .cancelled .count

/-- A public call: its answer and the writer after it. -/
def RusshChannelWriter.call (w : RusshChannelWriter) :
    WriterCall → Except SshSessionError WriterReply × RusshChannelWriter
  | .write bytes result => (w.writeBlocking bytes result).map WriterReply.ofCount id
  | .writeCancellable bytes cancelled result =>
      (w.writeCancellableBlocking bytes cancelled result).map WriterReply.ofOptionCount id
  | .resize size result => (w.resizePty size result).map WriterReply.ofUnit id
  | .resizeCancellable size cancelled result =>
      (w.resizeCancellableBlocking size cancelled result).map WriterReply.ofOptionUnit id
  | .keepalive result => (w.sendKeepalive result).map WriterReply.ofUnit id
  | .finishInput result => (w.finishInputBlocking result).map WriterReply.ofUnit id
  | .close result => (w.closeChannel result).map WriterReply.ofUnit id
  | .ioWrite bytes result => (w.writeBlocking bytes result).map WriterReply.ofCount id
  | .ioFlush => (.ok .done, w)
  | .writeChannel bytes result => (w.writeBlocking bytes result).map WriterReply.ofCount id
  | .resizePty size result => (w.resizePty size result).map WriterReply.ofUnit id
  | .sendKeepalive result => (w.sendKeepalive result).map WriterReply.ofUnit id
  | .closeChannel result => (w.closeChannel result).map WriterReply.ofUnit id

/-- A fresh writer after a sequence of calls. -/
def RusshChannelWriter.afterCalls (calls : List WriterCall) : RusshChannelWriter :=
  calls.foldl (fun w c => (w.call c).2) {}

/-- The channel operation an entry point asks for, for EOF and CLOSE. -/
def WriterCall.asks : WriterCall → Option TransportOp
  | .finishInput _ => some .eof
  | .close _ => some .close
  | .closeChannel _ => some .close
  | _ => none

/-- The calls that ask for a window change; a raised flag stops the cancellable one. -/
def WriterCall.resizes : WriterCall → Bool
  | .resize _ _ => true
  | .resizeCancellable _ cancelled _ => !cancelled
  | .resizePty _ _ => true
  | _ => false

/-! ## What a call can do -/

namespace RusshChannelWriter

variable {w : RusshChannelWriter}

/-- A call that attempts an operation and leaves the flags alone: data only while
both flags are clear, EOF and CLOSE only while allowed, and then not successful. -/
def Attempts (w w' : RusshChannelWriter) : Prop :=
  ∃ op outcome, w' = w.perform op outcome ∧
    (op.isData = true → w.lifecycle.closed = false ∧ w.lifecycle.inputFinished = false) ∧
    (op = .eof → w.lifecycle.closed = false ∧ w.lifecycle.inputFinished = false ∧
      outcome ≠ .succeeded) ∧
    (op = .close → w.lifecycle.closed = false ∧ outcome ≠ .succeeded)

/-- A successful EOF. -/
def FinishesInput (w w' : RusshChannelWriter) : Prop :=
  w.lifecycle.closed = false ∧ w.lifecycle.inputFinished = false ∧
    w' = { w.perform .eof .succeeded with lifecycle := w.lifecycle.markInputFinished }

/-- A successful CLOSE. -/
def Closes (w w' : RusshChannelWriter) : Prop :=
  w.lifecycle.closed = false ∧
    w' = { w.perform .close .succeeded with lifecycle := w.lifecycle.markClosed }

/-- Writing is allowed before EOF and CLOSE. -/
theorem ensureWriteAllowed_ok (h : w.lifecycle.ensureWriteAllowed = .ok ()) :
    w.lifecycle.closed = false ∧ w.lifecycle.inputFinished = false := by
  unfold RusshWriterLifecycle.ensureWriteAllowed at h
  split at h
  · cases h
  · split at h
    · cases h
    · simp_all

/-- An operation that is neither data, EOF nor CLOSE is an attempt in any state. -/
theorem attempts_perform {op : TransportOp} {outcome : TransportOutcome}
    (hdata : op.isData = false) (heof : op ≠ .eof) (hclose : op ≠ .close) :
    w.Attempts (w.perform op outcome) :=
  ⟨op, outcome, rfl, by simp [hdata], fun h => absurd h heof, fun h => absurd h hclose⟩

theorem attempts_windowChange (size : TerminalSize) (outcome : TransportOutcome) :
    w.Attempts (w.perform (windowChange size) outcome) :=
  attempts_perform rfl (by simp [windowChange]) (by simp [windowChange])

theorem attempts_keepalive (outcome : TransportOutcome) :
    w.Attempts (w.perform (.keepalive false) outcome) :=
  attempts_perform rfl (by simp) (by simp)

theorem attempts_data {bytes : List UInt8} {outcome : TransportOutcome}
    (h : w.lifecycle.ensureWriteAllowed = .ok ()) :
    w.Attempts (w.perform (.data bytes) outcome) :=
  ⟨.data bytes, outcome, rfl, fun _ => ensureWriteAllowed_ok h, by simp, by simp⟩

/-- A transport operation that is raced against cancellation has some outcome. -/
theorem blockOnSelect_snd (op : TransportOp) (context : String)
    (result : Option (Except String Unit)) :
    ∃ outcome, (w.blockOnSelect op context result).2 = w.perform op outcome := by
  cases result with
  | none => exact ⟨.cancelled, rfl⟩
  | some result => exact ⟨.ofResult result, rfl⟩

/-- A write is refused, or tries to send its bytes. -/
theorem writeBlocking_cases (bytes : List UInt8) (result : Except String Unit) :
    (w.writeBlocking bytes result).2 = w ∨ w.Attempts (w.writeBlocking bytes result).2 := by
  unfold writeBlocking
  split
  · exact Or.inl rfl
  · rename_i hallowed
    exact Or.inr (attempts_data hallowed)

/-- A cancellable write is refused or cancelled before it starts, or tries to send its bytes. -/
theorem writeCancellableBlocking_cases (bytes : List UInt8) (cancelled : Bool)
    (result : Option (Except String Unit)) :
    (w.writeCancellableBlocking bytes cancelled result).2 = w ∨
      w.Attempts (w.writeCancellableBlocking bytes cancelled result).2 := by
  unfold writeCancellableBlocking
  split
  · exact Or.inl rfl
  · rename_i hallowed
    cases cancelled with
    | true => exact Or.inl rfl
    | false =>
        rcases blockOnSelect_snd (.data bytes) "SSH channel write failed: " result (w := w) with
          ⟨outcome, hsnd⟩
        right
        simp only [Bool.false_eq_true, if_false, hsnd]
        exact attempts_data hallowed

/-- A resize is cancelled before it starts, or tries to change the window. -/
theorem resizeCancellableBlocking_cases (size : TerminalSize) (cancelled : Bool)
    (result : Option (Except String Unit)) :
    (w.resizeCancellableBlocking size cancelled result).2 = w ∨
      w.Attempts (w.resizeCancellableBlocking size cancelled result).2 := by
  unfold resizeCancellableBlocking
  cases cancelled with
  | true => exact Or.inl rfl
  | false =>
      rcases blockOnSelect_snd (windowChange size) "SSH PTY resize failed: " result (w := w) with
        ⟨outcome, hsnd⟩
      right
      simp only [Bool.false_eq_true, if_false, hsnd]
      exact attempts_windowChange size outcome

/-- A close does nothing the second time, fails, or succeeds and sets its flag. -/
theorem closeChannel_cases (result : Except String Unit) :
    (w.closeChannel result).2 = w ∨ w.Attempts (w.closeChannel result).2 ∨
      w.Closes (w.closeChannel result).2 := by
  unfold closeChannel RusshWriterLifecycle.prepareClose
  cases hclosed : w.lifecycle.closed with
  | true => exact Or.inl rfl
  | false =>
      cases result with
      | error message =>
          right; left
          exact ⟨.close, .failed message, rfl, by simp [TransportOp.isData], by simp,
            fun _ => ⟨hclosed, by simp⟩⟩
      | ok u => exact Or.inr (Or.inr ⟨hclosed, rfl⟩)

/-- An EOF does nothing the second time, fails, or succeeds and sets its flag. -/
theorem finishInputBlocking_cases (result : Except String Unit) :
    (w.finishInputBlocking result).2 = w ∨ w.Attempts (w.finishInputBlocking result).2 ∨
      w.FinishesInput (w.finishInputBlocking result).2 := by
  unfold finishInputBlocking RusshWriterLifecycle.prepareFinishInput
  cases hclosed : w.lifecycle.closed with
  | true => exact Or.inl rfl
  | false =>
      cases hfinished : w.lifecycle.inputFinished with
      | true => exact Or.inl rfl
      | false =>
          cases result with
          | error message =>
              right; left
              exact ⟨.eof, .failed message, rfl, by simp [TransportOp.isData],
                fun _ => ⟨hclosed, hfinished, by simp⟩, by simp⟩
          | ok u => exact Or.inr (Or.inr ⟨hclosed, hfinished, rfl⟩)

/-- Everything a public call can do to the writer. -/
theorem call_cases (c : WriterCall) :
    (w.call c).2 = w ∨ w.Attempts (w.call c).2 ∨ w.FinishesInput (w.call c).2 ∨
      w.Closes (w.call c).2 := by
  cases c with
  | write bytes result =>
      exact (writeBlocking_cases bytes result).imp id Or.inl
  | writeCancellable bytes cancelled result =>
      exact (writeCancellableBlocking_cases bytes cancelled result).imp id Or.inl
  | resize size result => exact Or.inr (Or.inl (attempts_windowChange size _))
  | resizeCancellable size cancelled result =>
      exact (resizeCancellableBlocking_cases size cancelled result).imp id Or.inl
  | keepalive result => exact Or.inr (Or.inl (attempts_keepalive _))
  | finishInput result =>
      exact (finishInputBlocking_cases result).imp id (Or.imp id Or.inl)
  | close result => exact (closeChannel_cases result).imp id (Or.imp id Or.inr)
  | ioWrite bytes result =>
      exact (writeBlocking_cases bytes result).imp id Or.inl
  -- there is nothing to flush
  | ioFlush => exact Or.inl rfl
  | writeChannel bytes result =>
      exact (writeBlocking_cases bytes result).imp id Or.inl
  | resizePty size result => exact Or.inr (Or.inl (attempts_windowChange size _))
  | sendKeepalive result => exact Or.inr (Or.inl (attempts_keepalive _))
  | closeChannel result => exact (closeChannel_cases result).imp id (Or.imp id Or.inr)

/-! ## The flags and the log -/

/-- What may come later in the log than a given entry: after a successful EOF no
data and no EOF, after a successful CLOSE no CLOSE either. -/
def MayFollow (earlier later : TransportOp × TransportOutcome) : Prop :=
  (earlier = (.eof, .succeeded) → later.1.isData = false ∧ later.1 ≠ .eof) ∧
  (earlier = (.close, .succeeded) →
    later.1.isData = false ∧ later.1 ≠ .eof ∧ later.1 ≠ .close)

/-- The flags are set exactly by the successful operations in the log, and the log
is ordered. -/
structure WriterInv (w : RusshChannelWriter) : Prop where
  closed : w.lifecycle.closed = true ↔ (.close, .succeeded) ∈ w.transport
  finished : w.lifecycle.inputFinished = true ↔
    (.eof, .succeeded) ∈ w.transport ∨ (.close, .succeeded) ∈ w.transport
  ordered : w.transport.Pairwise MayFollow

theorem init_inv : WriterInv {} := by
  constructor <;> simp

/-- An operation that the flags allow may follow everything in the log. -/
theorem ordered_perform (hinv : WriterInv w) {op : TransportOp} {outcome : TransportOutcome}
    (hdata : op.isData = true → w.lifecycle.closed = false ∧ w.lifecycle.inputFinished = false)
    (heof : op = .eof → w.lifecycle.closed = false ∧ w.lifecycle.inputFinished = false)
    (hclose : op = .close → w.lifecycle.closed = false) :
    (w.perform op outcome).transport.Pairwise MayFollow := by
  simp only [perform, List.pairwise_append, List.pairwise_singleton, List.mem_singleton,
    true_and, forall_eq]
  refine ⟨hinv.ordered, fun earlier hmem => ⟨?_, ?_⟩⟩
  · rintro rfl
    -- data behind a sent EOF would have been refused
    have hset : w.lifecycle.inputFinished = true := hinv.finished.mpr (Or.inl hmem)
    constructor
    · cases hd : op.isData with
      | false => rfl
      | true => simp [(hdata hd).2] at hset
    · intro h
      simp [(heof h).2] at hset
  · rintro rfl
    -- and behind a sent CLOSE data, EOF and CLOSE alike
    have hset : w.lifecycle.closed = true := hinv.closed.mpr hmem
    refine ⟨?_, ?_, ?_⟩
    · cases hd : op.isData with
      | false => rfl
      | true => simp [(hdata hd).1] at hset
    · intro h
      simp [(heof h).1] at hset
    · intro h
      simp [hclose h] at hset

/-- Each call keeps the flags and the log in agreement. -/
theorem step_inv (hinv : WriterInv w) (c : WriterCall) : WriterInv (w.call c).2 := by
  rcases call_cases (w := w) c with h | ⟨op, outcome, h, hdata, heof, hclose⟩ |
    ⟨hopen, hinput, h⟩ | ⟨hopen, h⟩
  · rw [h]
    exact hinv
  · -- an attempt that sets no flag adds no successful EOF or CLOSE
    rw [h]
    have heof' : op = .eof → outcome ≠ .succeeded := fun e => (heof e).2.2
    have hclose' : op = .close → outcome ≠ .succeeded := fun e => (hclose e).2
    -- an attempt that is no EOF or CLOSE, or fails, sets no flag
    have hno : ∀ x, x = .eof ∨ x = .close →
        ((x, TransportOutcome.succeeded) ∈ (w.perform op outcome).transport ↔
          (x, TransportOutcome.succeeded) ∈ w.transport) := by
      intro x hx
      simp only [perform, List.mem_append, List.mem_singleton, Prod.mk.injEq]
      constructor
      · rintro (hmem | ⟨rfl, rfl⟩)
        · exact hmem
        · rcases hx with rfl | rfl
          · exact absurd rfl (heof' rfl)
          · exact absurd rfl (hclose' rfl)
      · exact Or.inl
    refine ⟨?_, ?_, ordered_perform hinv hdata (fun e => ⟨(heof e).1, (heof e).2.1⟩)
      (fun e => (hclose e).1)⟩
    · rw [hno .close (Or.inr rfl)]
      exact hinv.closed
    · rw [hno .eof (Or.inl rfl), hno .close (Or.inr rfl)]
      exact hinv.finished
  · -- EOF succeeds
    rw [h]
    refine ⟨?_, ?_, ordered_perform hinv nofun (fun _ => ⟨hopen, hinput⟩) nofun⟩
    · have hclosed := hinv.closed
      simpa [perform, RusshWriterLifecycle.markInputFinished] using hclosed
    · simp [perform, RusshWriterLifecycle.markInputFinished]
  · -- CLOSE succeeds
    rw [h]
    refine ⟨?_, ?_, ordered_perform hinv nofun nofun (fun _ => hopen)⟩
    · simp [perform, RusshWriterLifecycle.markClosed]
    · simp [perform, RusshWriterLifecycle.markClosed]

/-- The flags and the log agree after all calls. -/
theorem afterCalls_inv (calls : List WriterCall) : WriterInv (afterCalls calls) :=
  List.foldlRecOn calls _ init_inv fun _ hinv c _ => step_inv hinv c

/-- An entry that may not follow itself occurs at most once. -/
theorem count_le_one_of_pairwise {log : List (TransportOp × TransportOutcome)}
    {x : TransportOp × TransportOutcome}
    (h : log.Pairwise fun earlier later => earlier = x → later ≠ x) : log.count x ≤ 1 := by
  induction log with
  | nil => simp
  | cons y log ih =>
      rcases List.pairwise_cons.mp h with ⟨hy, hlog⟩
      by_cases hyx : y = x
      · subst hyx
        have hnot : y ∉ log := fun hmem => hy y hmem rfl rfl
        simp [List.count_eq_zero_of_not_mem hnot]
      · rw [List.count_cons_of_ne hyx]
        exact ih hlog

theorem pairwise_of_length_le_one {α : Type} {R : α → α → Prop} {xs : List α}
    (h : xs.length ≤ 1) : xs.Pairwise R := by
  match xs, h with
  | [], _ => exact .nil
  | [x], _ => exact List.pairwise_singleton R x

/-! ## EOF and CLOSE -/

/-- A second EOF succeeds without a transport operation. -/
theorem finishInputBlocking_done (h : w.lifecycle.prepareFinishInput = .alreadyDone)
    (result : Except String Unit) : w.finishInputBlocking result = (.ok (), w) := by
  simp [finishInputBlocking, h]

/-- A second CLOSE succeeds without a transport operation. -/
theorem closeChannel_done (h : w.lifecycle.prepareClose = .alreadyDone)
    (result : Except String Unit) : w.closeChannel result = (.ok (), w) := by
  simp [closeChannel, h]

theorem finishInputBlocking_execute (h : w.lifecycle.prepareFinishInput = .execute)
    (result : Except String Unit) :
    (w.finishInputBlocking result).2.transport = w.transport ++ [(.eof, .ofResult result)] := by
  cases result <;> simp [finishInputBlocking, h, blockOn, Except.mapError, perform]

theorem closeChannel_execute (h : w.lifecycle.prepareClose = .execute)
    (result : Except String Unit) :
    (w.closeChannel result).2.transport = w.transport ++ [(.close, .ofResult result)] := by
  cases result <;> simp [closeChannel, h, blockOn, Except.mapError, perform]

/-- A failed EOF leaves the flags, so the next one is executed again. -/
theorem finishInputBlocking_error {result : Except String Unit} {error : SshSessionError}
    (h : (w.finishInputBlocking result).1 = .error error) :
    (w.finishInputBlocking result).2.lifecycle = w.lifecycle ∧
      w.lifecycle.prepareFinishInput = .execute := by
  cases hp : w.lifecycle.prepareFinishInput with
  | alreadyDone => simp [finishInputBlocking_done hp] at h
  | execute =>
      cases result with
      | error message => simp [finishInputBlocking, hp, blockOn, Except.mapError, perform]
      | ok u => simp [finishInputBlocking, hp, blockOn, Except.mapError] at h

/-- A failed CLOSE leaves the flags, so the next one is executed again. -/
theorem closeChannel_error {result : Except String Unit} {error : SshSessionError}
    (h : (w.closeChannel result).1 = .error error) :
    (w.closeChannel result).2.lifecycle = w.lifecycle ∧
      w.lifecycle.prepareClose = .execute := by
  cases hp : w.lifecycle.prepareClose with
  | alreadyDone => simp [closeChannel_done hp] at h
  | execute =>
      cases result with
      | error message => simp [closeChannel, hp, blockOn, Except.mapError, perform]
      | ok u => simp [closeChannel, hp, blockOn, Except.mapError] at h

/-- The calls that ask for EOF are `finish_input`. -/
theorem asks_eof {c : WriterCall} (h : c.asks = some .eof) :
    ∃ result, ∀ w : RusshChannelWriter,
      w.call c = (w.finishInputBlocking result).map WriterReply.ofUnit id := by
  cases c <;> simp [WriterCall.asks] at h
  exact ⟨_, fun _ => rfl⟩

/-- The calls that ask for CLOSE are the two entry points of `close_channel`. -/
theorem asks_close {c : WriterCall} (h : c.asks = some .close) :
    ∃ result, ∀ w : RusshChannelWriter,
      w.call c = (w.closeChannel result).map WriterReply.ofUnit id := by
  cases c <;> simp [WriterCall.asks] at h
  · exact ⟨_, fun _ => rfl⟩
  · exact ⟨_, fun _ => rfl⟩

/-- A reply is an error when its call has failed. -/
theorem ofUnit_error {result : Except SshSessionError Unit} {error : SshSessionError}
    (h : WriterReply.ofUnit result = .error error) : result = .error error := by
  cases result with
  | error e =>
      have he : e = error := by simpa [WriterReply.ofUnit, Except.map] using h
      rw [he]
  | ok u => simp [WriterReply.ofUnit, Except.map] at h

/-- A call for EOF or CLOSE that answers an error has left the flags as they were,
and the next call of the same kind goes to the transport again. -/
theorem failed_call_retries {c : WriterCall} {op : TransportOp} {error : SshSessionError}
    (hasks : c.asks = some op) (herror : (w.call c).1 = .error error) :
    (w.call c).2.lifecycle = w.lifecycle ∧
      ∀ c', c'.asks = some op → ∃ outcome,
        ((w.call c).2.call c').2.transport = (w.call c).2.transport ++ [(op, outcome)] := by
  have hop : op = .eof ∨ op = .close := by
    cases c <;> simp [WriterCall.asks] at hasks <;> simp [← hasks]
  -- a failure leaves the flag, so the next call sends again
  rcases hop with rfl | rfl
  · rcases asks_eof hasks with ⟨result, hc⟩
    rw [hc] at herror ⊢
    rcases finishInputBlocking_error (ofUnit_error herror) with ⟨hkeep, hexec⟩
    refine ⟨hkeep, ?_⟩
    intro c' hasks'
    rcases asks_eof hasks' with ⟨result', hc'⟩
    rw [hc']
    exact ⟨_, finishInputBlocking_execute (by simpa [hkeep] using hexec) result'⟩
  · rcases asks_close hasks with ⟨result, hc⟩
    rw [hc] at herror ⊢
    rcases closeChannel_error (ofUnit_error herror) with ⟨hkeep, hexec⟩
    refine ⟨hkeep, ?_⟩
    intro c' hasks'
    rcases asks_close hasks' with ⟨result', hc'⟩
    rw [hc']
    exact ⟨_, closeChannel_execute (by simpa [hkeep] using hexec) result'⟩

/-- After any sequence of public calls with any transport outcomes: at most one EOF
and one CLOSE have succeeded; no data operation came after a successful EOF or
CLOSE and no EOF after a successful CLOSE; a failed EOF or CLOSE leaves the flags
unchanged and can be retried; and once done, EOF and CLOSE answer Ok without
touching the transport. -/
theorem writer_lifecycle (calls : List WriterCall) :
    let w := afterCalls calls
    w.transport.count (.eof, .succeeded) ≤ 1 ∧
    w.transport.count (.close, .succeeded) ≤ 1 ∧
    w.transport.Pairwise (fun earlier later =>
      (earlier = (.eof, .succeeded) ∨ earlier = (.close, .succeeded) →
        later.1.isData = false) ∧
      (earlier = (.close, .succeeded) → later.1 ≠ .eof)) ∧
    (∀ c op error, c.asks = some op → (w.call c).1 = .error error →
      (w.call c).2.lifecycle = w.lifecycle ∧
      ∀ c', c'.asks = some op → ∃ outcome,
        ((w.call c).2.call c').2.transport = (w.call c).2.transport ++ [(op, outcome)]) ∧
    (∀ c, c.asks = some .eof →
      (.eof, .succeeded) ∈ w.transport ∨ (.close, .succeeded) ∈ w.transport →
      w.call c = (.ok .done, w)) ∧
    (∀ c, c.asks = some .close → (.close, .succeeded) ∈ w.transport →
      w.call c = (.ok .done, w)) := by
  intro w
  have hinv : WriterInv w := afterCalls_inv calls
  refine ⟨?_, ?_, ?_, ?_, ?_, ?_⟩
  · apply count_le_one_of_pairwise
    refine hinv.ordered.imp ?_
    intro _ _ hfollow hearlier hlater
    exact (hfollow.1 hearlier).2 (congrArg Prod.fst hlater)
  · apply count_le_one_of_pairwise
    refine hinv.ordered.imp ?_
    intro _ _ hfollow hearlier hlater
    exact (hfollow.2 hearlier).2.2 (congrArg Prod.fst hlater)
  · refine hinv.ordered.imp fun hfollow => ⟨?_, fun hearlier => (hfollow.2 hearlier).2.1⟩
    rintro (hearlier | hearlier)
    · exact (hfollow.1 hearlier).1
    · exact (hfollow.2 hearlier).1
  · intro c op error hasks herror
    exact failed_call_retries hasks herror
  · intro c hasks hdone
    rcases asks_eof hasks with ⟨result, hc⟩
    -- EOF is done when EOF or CLOSE has succeeded
    have hset : w.lifecycle.inputFinished = true := hinv.finished.mpr hdone
    rw [hc, finishInputBlocking_done (by simp [RusshWriterLifecycle.prepareFinishInput, hset])]
    rfl
  · intro c hasks hdone
    rcases asks_close hasks with ⟨result, hc⟩
    have hset : w.lifecycle.closed = true := hinv.closed.mpr hdone
    rw [hc, closeChannel_done (by simp [RusshWriterLifecycle.prepareClose, hset])]
    rfl

/-! ## After CLOSE -/

/-- After a successful CLOSE the transport is given no further message of the channel. -/
def SilentAfterClose (w : RusshChannelWriter) : Prop :=
  w.transport.Pairwise fun earlier later =>
    earlier = (.close, .succeeded) → later.1.channelScoped = false

/-- No call of the sequence asks for a window change when the writer is closed. -/
def NoResizeOnceClosed (calls : List WriterCall) : Prop :=
  ∀ pre c post, calls = pre ++ c :: post → (afterCalls pre).lifecycle.closed = true →
    c.resizes = false

theorem afterCalls_concat (calls : List WriterCall) (c : WriterCall) :
    afterCalls (calls ++ [c]) = ((afterCalls calls).call c).2 := by
  simp [afterCalls]

/-- A call adds at most one entry to the log. -/
theorem call_transport (w : RusshChannelWriter) (c : WriterCall) :
    ∃ entries, (w.call c).2.transport = w.transport ++ entries ∧ entries.length ≤ 1 := by
  rcases call_cases (w := w) c with h | ⟨op, outcome, h, -⟩ | ⟨-, -, h⟩ | ⟨-, h⟩
  · exact ⟨[], by simp [h], by simp⟩
  · exact ⟨[(op, outcome)], by simp [h, perform], by simp⟩
  · exact ⟨[(.eof, .succeeded)], by simp [h, perform], by simp⟩
  · exact ⟨[(.close, .succeeded)], by simp [h, perform], by simp⟩

/-- Once closed, only a resize adds a message of the channel: every other operation
looks at the flags first. -/
theorem closed_call_transport (hclosed : w.lifecycle.closed = true) (c : WriterCall) :
    ∃ entries, (w.call c).2.transport = w.transport ++ entries ∧ entries.length ≤ 1 ∧
      ((∀ entry ∈ entries, entry.1.channelScoped = false) ↔ c.resizes = false) := by
  have hrefused : ∀ bytes result, (w.writeBlocking bytes result).2 = w := by
    intro bytes result
    simp [writeBlocking, RusshWriterLifecycle.ensureWriteAllowed, hclosed]
  have hdone : ∀ result, (w.closeChannel result).2 = w := by
    intro result
    simp [closeChannel, RusshWriterLifecycle.prepareClose, hclosed]
  cases c with
  | write bytes result | ioWrite bytes result | writeChannel bytes result =>
      exact ⟨[], by simp [call, hrefused], by simp, by simp [WriterCall.resizes]⟩
  | writeCancellable bytes cancelled result =>
      refine ⟨[], ?_, by simp, by simp [WriterCall.resizes]⟩
      simp [call, writeCancellableBlocking, RusshWriterLifecycle.ensureWriteAllowed, hclosed]
  | finishInput result =>
      refine ⟨[], ?_, by simp, by simp [WriterCall.resizes]⟩
      simp [call, finishInputBlocking, RusshWriterLifecycle.prepareFinishInput, hclosed]
  | close result | closeChannel result =>
      exact ⟨[], by simp [call, hdone], by simp, by simp [WriterCall.resizes]⟩
  | ioFlush => exact ⟨[], by simp [call], by simp, by simp [WriterCall.resizes]⟩
  | keepalive result | sendKeepalive result =>
      exact ⟨[(.keepalive false, .ofResult result)], rfl, by simp,
        by simp [WriterCall.resizes, TransportOp.channelScoped]⟩
  | resize size result | resizePty size result =>
      -- `resize_pty` has no check
      exact ⟨[(windowChange size, .ofResult result)], rfl, by simp,
        by simp [WriterCall.resizes, TransportOp.channelScoped, windowChange]⟩
  | resizeCancellable size cancelled result =>
      cases cancelled with
      | true =>
          exact ⟨[], by simp [call, resizeCancellableBlocking], by simp,
            by simp [WriterCall.resizes]⟩
      | false =>
          rcases blockOnSelect_snd (windowChange size) "SSH PTY resize failed: " result (w := w)
            with ⟨outcome, hsnd⟩
          refine ⟨[(windowChange size, outcome)], ?_, by simp, ?_⟩
          · simp [call, resizeCancellableBlocking, hsnd, perform]
          · simp [WriterCall.resizes, TransportOp.channelScoped, windowChange]

/-- One more call keeps the silence unless it resizes a closed writer. -/
theorem silentAfterClose_call_iff (hinv : WriterInv w) (c : WriterCall) :
    SilentAfterClose (w.call c).2 ↔
      SilentAfterClose w ∧ (w.lifecycle.closed = true → c.resizes = false) := by
  cases hclosed : w.lifecycle.closed with
  | false =>
      -- what this call sends is not behind a CLOSE
      have hnone : (.close, .succeeded) ∉ w.transport := by
        rw [← hinv.closed, hclosed]
        simp
      rcases call_transport w c with ⟨entries, hentries, hone⟩
      simp only [SilentAfterClose, hentries, List.pairwise_append, reduceCtorEq, false_implies,
        and_true]
      constructor
      · exact fun h => h.1
      · intro h
        refine ⟨h, pairwise_of_length_le_one hone, ?_⟩
        rintro earlier hearlier later - rfl
        exact absurd hearlier hnone
  | true =>
      -- here everything that it sends is, and only a resize sends
      have hmem : (.close, .succeeded) ∈ w.transport := hinv.closed.mp hclosed
      rcases closed_call_transport hclosed c with ⟨entries, hentries, hone, hscoped⟩
      simp only [SilentAfterClose, hentries, List.pairwise_append, true_implies, ← hscoped]
      constructor
      · rintro ⟨hold, -, hnew⟩
        exact ⟨hold, fun entry hentry => hnew _ hmem entry hentry rfl⟩
      · rintro ⟨hold, hnew⟩
        exact ⟨hold, pairwise_of_length_le_one hone, fun _ _ later hlater _ => hnew later hlater⟩

/-- Nothing of the channel follows a successful CLOSE exactly when no resize is asked of
a closed writer. -/
theorem silent_after_close_iff (calls : List WriterCall) :
    SilentAfterClose (afterCalls calls) ↔ NoResizeOnceClosed calls := by
  induction calls using List.reverseRecOn with
  | nil =>
      constructor
      · rintro - pre c post h
        simp at h
      · intro _
        exact List.Pairwise.nil
  | append_singleton calls c ih =>
      rw [afterCalls_concat, silentAfterClose_call_iff (afterCalls_inv calls), ih]
      constructor
      · rintro ⟨hold, hlast⟩ pre c' post hsplit hclosed
        -- the resize is the last call, or one before it
        rcases List.eq_nil_or_concat post with rfl | ⟨init, last, rfl⟩
        · -- the new call
          rcases List.append_inj' hsplit rfl with ⟨rfl, hc⟩
          obtain rfl := List.singleton_inj.mp hc
          exact hlast hclosed
        · -- an earlier one
          rw [List.concat_eq_append, ← List.cons_append, ← List.append_assoc] at hsplit
          rcases List.append_inj' hsplit rfl with ⟨rfl, -⟩
          exact hold pre c' init rfl hclosed
      · intro hall
        constructor
        · intro pre c' post hsplit
          exact hall pre c' (post ++ [c]) (by simp [hsplit])
        · exact hall calls c [] rfl

/-- A window change follows the CLOSE. -/
theorem resize_after_close_is_sent :
    ¬ SilentAfterClose (afterCalls [.close (.ok ()), .resize ⟨80, 24⟩ (.ok ())]) := by
  intro h
  have hsent := List.pairwise_cons.mp h
  simpa [TransportOp.channelScoped, windowChange] using hsent.1 _ (List.mem_singleton.mpr rfl) rfl

end RusshChannelWriter

end Rssh
