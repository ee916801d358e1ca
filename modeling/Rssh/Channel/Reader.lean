import Rssh.Types

/-!
# The channel reader

`RusshChannelReader` turns the message stream of a russh channel into the byte
stream of `SshShellReader::read`. The read half is the list of messages still to
be delivered, in order and each once; when it is empty `wait` reports the end of
the channel. What ends a single wait (a message, the cancellation flag, the
inactivity deadline) is decided by the environment and is an argument of the call.
-/

namespace Rssh

/-! ## Channel messages -/

/-- `russh::Sig`. -/
inductive Sig where
  | ABRT | ALRM | FPE | HUP | ILL | INT | KILL | PIPE | QUIT | SEGV | TERM | USR1
  | custom (name : String)
deriving DecidableEq, Repr

def signalNameText : Sig → String
  | .ABRT => "ABRT"
  | .ALRM => "ALRM"
  | .FPE => "FPE"
  | .HUP => "HUP"
  | .ILL => "ILL"
  | .INT => "INT"
  | .KILL => "KILL"
  | .PIPE => "PIPE"
  | .QUIT => "QUIT"
  | .SEGV => "SEGV"
  | .TERM => "TERM"
  | .USR1 => "USR1"
  | .custom name => name

/-- `russh::ChannelMsg`: the kinds the client distinguishes, the two request
replies, and one constructor for every other kind. -/
inductive ChannelMsg where
  | data (data : List UInt8)
  | extendedData (ext : UInt32) (data : List UInt8)
  | exitStatus (exitStatus : UInt32)
  | exitSignal (signalName : Sig) (coreDumped : Bool) (errorMessage langTag : String)
  | eof
  | close
  | success
  | failure
  | other
deriving DecidableEq, Repr

inductive RusshReadAction where
  | data (bytes : List UInt8)
  | continue_
  | finished
deriving DecidableEq, Repr

/-- `apply_channel_message`: EOF only half-closes the remote data, so it takes the
non-terminal path with every kind the client does not know. -/
def applyChannelMessage (result : SshSessionResult) :
    ChannelMsg → SshSessionResult × RusshReadAction
  | .data data => (result, .data data)
  | .extendedData _ data => (result, .data data)
  | .exitStatus exitStatus => ({ result with exitStatus := some exitStatus }, .continue_)
  | .exitSignal signalName coreDumped errorMessage langTag =>
      ({ result with
          exitSignal := some ⟨signalNameText signalName, coreDumped, errorMessage, langTag⟩ },
        .continue_)
  | .close => (result, .finished)
  -- exit metadata may still arrive after an EOF
  | .eof | .success | .failure | .other => (result, .continue_)

/-! ## The reader -/

/-- What ends one wait for the next channel message. -/
inductive Wake where
  | message
  | cancelled
  | elapsed
deriving DecidableEq, Repr

structure RusshChannelReader where
  readHalf : List ChannelMsg
  pendingRead : List UInt8 := []
  result : SshSessionResult := {}
  finished : Bool := false
  inactivityTimeout : Option Duration := none
deriving DecidableEq, Repr

namespace RusshChannelReader

/-- `fill_from_pending`: move as many queued bytes as the buffer holds. -/
def fillFromPending (r : RusshChannelReader) (capacity : Nat) :
    List UInt8 × RusshChannelReader :=
  (r.pendingRead.take capacity, { r with pendingRead := r.pendingRead.drop capacity })

def queueReadBytes (r : RusshChannelReader) (bytes : List UInt8) : RusshChannelReader :=
  { r with pendingRead := r.pendingRead ++ bytes }

def inactivityError (timeout : Duration) : SshSessionError :=
  ⟨"SSH channel read inactivity deadline exceeded after " ++ timeout.debug⟩

/-- The message loop of `read_cancellable_blocking`. The bytes put in the buffer
stand for the returned count; `none` is a read that lost to cancellation. Without
an inactivity timeout the deadline cannot elapse, so that wake counts as a
message. -/
def readLoop (capacity : Nat) : List ChannelMsg → (Nat → Wake) → RusshChannelReader →
    Except SshSessionError (Option (List UInt8)) × RusshChannelReader
  | [], wake, r =>
      match wake 0, r.inactivityTimeout with
      | .elapsed, some timeout => (.error (inactivityError timeout), { r with readHalf := [] })
      | .cancelled, _ => (.ok none, { r with readHalf := [] })
      -- the end of the channel is a Close
      | _, _ => (.ok (some []), { r with readHalf := [], finished := true })
  | message :: rest, wake, r =>
      match wake 0, r.inactivityTimeout with
      | .elapsed, some timeout =>
          (.error (inactivityError timeout), { r with readHalf := message :: rest })
      | .cancelled, _ => (.ok none, { r with readHalf := message :: rest })
      | _, _ =>
          match applyChannelMessage r.result message with
          | (result, .data data) =>
              let (bytes, r') :=
                ({ r with readHalf := rest, result }.queueReadBytes data).fillFromPending capacity
              (.ok (some bytes), r')
          | (result, .finished) =>
              (.ok (some []), { r with readHalf := rest, result, finished := true })
          | (result, .continue_) => readLoop capacity rest (fun i => wake (i + 1)) { r with result }

/-- `read_cancellable_blocking`. -/
def readCancellableBlocking (r : RusshChannelReader) (capacity : Nat) (wake : Nat → Wake) :
    Except SshSessionError (Option (List UInt8)) × RusshChannelReader :=
  if capacity = 0 then (.ok (some []), r)
  else
    let (bytes, r') := r.fillFromPending capacity
    if 0 < bytes.length then (.ok (some bytes), r')
    else if r.finished then (.ok (some []), r)
    else readLoop capacity r.readHalf wake r

/-- The `ok_or_else` of `read_blocking`. -/
def uncancelled : Except SshSessionError (Option (List UInt8)) × RusshChannelReader →
    Except SshSessionError (List UInt8) × RusshChannelReader
  | (.error error, r) => (.error error, r)
  | (.ok none, r) => (.error ⟨"SSH channel read unexpectedly cancelled"⟩, r)
  | (.ok (some bytes), r) => (.ok bytes, r)

/-- `read_blocking`: its cancellation flag is never set, so only the deadline can
win over a message. -/
def readBlocking (r : RusshChannelReader) (capacity : Nat) (elapsed : Nat → Bool) :
    Except SshSessionError (List UInt8) × RusshChannelReader :=
  uncancelled
    (r.readCancellableBlocking capacity fun i => if elapsed i then .elapsed else .message)

end RusshChannelReader

/-- A read of the channel, with the wake-ups the environment picks for it. -/
inductive ReadCall where
  | read (capacity : Nat) (elapsed : Nat → Bool)
  | readCancellable (capacity : Nat) (wake : Nat → Wake)

namespace RusshChannelReader

/-- One read. A `read` that returns is the `Some` of a `read_cancellable`. -/
def readCall (r : RusshChannelReader) :
    ReadCall → Except SshSessionError (Option (List UInt8)) × RusshChannelReader
  | .read capacity elapsed =>
      let (result, r') := r.readBlocking capacity elapsed
      (result.map some, r')
  | .readCancellable capacity wake => r.readCancellableBlocking capacity wake

/-! ## One read of a reader without deadline -/

section NoDeadline

variable {r : RusshChannelReader} {capacity : Nat} {elapsed : Nat → Bool}

theorem readBlocking_pending (hcap : 0 < capacity) (hpending : r.pendingRead ≠ []) :
    r.readBlocking capacity elapsed =
      (.ok (r.pendingRead.take capacity),
        { r with pendingRead := r.pendingRead.drop capacity }) := by
  have hlen : 0 < (r.pendingRead.take capacity).length := by
    have := List.length_pos_iff.mpr hpending
    simp only [List.length_take]
    omega
  have hcap' : capacity ≠ 0 := by omega
  simp only [readBlocking, readCancellableBlocking, fillFromPending, hcap', if_false, hlen, if_true,
    uncancelled]

/-- With nothing queued, a read of an open reader is the message loop. -/
theorem readCancellableBlocking_loop (hcap : 0 < capacity) (hpending : r.pendingRead = [])
    (hopen : r.finished = false) (wake : Nat → Wake) :
    r.readCancellableBlocking capacity wake = readLoop capacity r.readHalf wake r := by
  have hcap' : capacity ≠ 0 := by omega
  simp [readCancellableBlocking, fillFromPending, hcap', hpending, hopen]

end NoDeadline

end RusshChannelReader

end Rssh
