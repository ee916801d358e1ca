import Rssh.Lib.Machine
import Rssh.Types

/-!
# The input pump

`pump_input_events` takes local input events from a bounded channel and hands them to
an `SshShellWriter`, with a partial-write loop inside the event loop and a
cancellation flag that is polled before and after every wait.

* `InputPump.step` is one step of the pump: a check of the flag, a wait on the
  channel, a call of the writer. What the environment decides (the receive outcome,
  the writer's answer, the moment at which the output side raises the flag) is part
  of the label.
* The history records the events that the pump handled and every call of the writer,
  in the order in which they happen.
* `script` is the specification: what a writer that accepts everything is given.
  `EffectInv` says that what the writer got and what the pump still holds make up the
  script, and `input_stream_intact` derives the guarantees of the stream from it.
-/

namespace Rssh

/-! ## Calls of the writer -/

/-- The answer to `write_cancellable`: so many bytes accepted, `Ok(None)`, or no
return. -/
inductive WriteOutcome where
  | accepted (count : Nat)
  | cancelled
  | failed (error : SshSessionError)
  | panicked
deriving DecidableEq, Repr

/-- The answer to `resize_cancellable` (when not cancelled), `finish_input` and
`close`. -/
inductive CallOutcome where
  | done
  | failed (error : SshSessionError)
  | panicked
deriving DecidableEq, Repr

/-- The three places that close the writer: the pump on a Cancel event, the input
thread after a failed pump, the runner at the end. -/
inductive CloseSite where
  | cancelEvent
  | emergency
  | final
deriving DecidableEq, Repr

/-- One entry of the history. A write offers `bytes` from position `written` on; a
resize is `none` when it was cancelled. -/
inductive SessionEvent where
  | handled (event : SshInputEvent)
  | write (bytes : List UInt8) (written : Nat) (outcome : WriteOutcome)
  | resize (size : TerminalSize) (outcome : Option CallOutcome)
  | finishInput (outcome : CallOutcome)
  | close (site : CloseSite) (outcome : CallOutcome)
deriving DecidableEq, Repr

/-! ## The pump -/

inductive PumpPc where
  /-- Head of the loop in `recv_cancellable`. -/
  | polling
  /-- Inside `recv_timeout`. -/
  | receiving
  /-- An event arrived; `input_event_after_wakeup` checks the flag once more. -/
  | woken (event : SshInputEvent)
  /-- Head of the loop in `write_all_to_shell`. -/
  | writing (bytes : List UInt8) (written : Nat)
  | resizing (size : TerminalSize)
  /-- A Cancel event: the flag is raised, then the writer is closed. -/
  | cancelling
  | closing
  | finishing
  | ended (result : Except SshSessionError Nat)
  | panicked
deriving DecidableEq, Repr

structure InputPump where
  pc : PumpPc := .polling
  /-- The events still to be received, in order. -/
  inbox : List SshInputEvent
  cancelled : Bool := false
  inputBytes : Nat := 0
deriving DecidableEq, Repr

/-- `recv_timeout`; the sender's disconnection shows once the channel is empty. -/
inductive RecvOutcome where
  | event
  | timeout
  | disconnected
deriving DecidableEq, Repr

inductive PumpLabel where
  /-- The output side raises the flag. -/
  | raise
  /-- The pump's own control flow: checks of the flag and of the loop condition. -/
  | advance
  | recv (outcome : RecvOutcome)
  | write (outcome : WriteOutcome)
  | resize (outcome : Option CallOutcome)
  | finishInput (outcome : CallOutcome)
  | close (outcome : CallOutcome)
deriving DecidableEq, Repr

namespace InputPump

/-- Leave the pump with its byte count. -/
def endOk (p : InputPump) : InputPump := { p with pc := .ended (.ok p.inputBytes) }

def endError (p : InputPump) (error : SshSessionError) : InputPump :=
  { p with pc := .ended (.error error) }

/-- The branch of the event loop that an event selects. -/
def dispatch : SshInputEvent → PumpPc
  | .data bytes => .writing bytes 0
  | .resize size => .resizing size
  | .cancel => .cancelling
  | .eof => .finishing
  | .error message => .ended (.error ⟨message⟩)

/-- The steps between calls. -/
def advance (p : InputPump) : Option (InputPump × List SessionEvent) :=
  match p.pc with
  -- `recv_cancellable` before its wait
  | .polling => some (if p.cancelled then p.endOk else { p with pc := .receiving }, [])
  -- `input_event_after_wakeup`: a flag raised during the wait drops the event
  | .woken event =>
      if p.cancelled then some (p.endOk, [])
      else some ({ p with pc := dispatch event }, [.handled event])
  -- the event counts once all of it is written
  | .writing bytes written =>
      if written < bytes.length then none
      else
        some ({ p with pc := .polling, inputBytes := saturatingAdd p.inputBytes bytes.length }, [])
  | .cancelling => some ({ p with pc := .closing, cancelled := true }, [])
  | _ => none

/-- The wait in `recv_cancellable`. A disconnected channel is an Eof event. -/
def recv (p : InputPump) (outcome : RecvOutcome) : Option (InputPump × List SessionEvent) :=
  match p.pc, outcome, p.inbox with
  | .receiving, .event, event :: inbox => some ({ p with pc := .woken event, inbox }, [])
  | .receiving, .timeout, _ => some ({ p with pc := .polling }, [])
  | .receiving, .disconnected, [] => some ({ p with pc := .woken .eof }, [])
  | _, _, _ => none

/-- The state after an answer to a write; at most the offered bytes are accepted. -/
def afterWrite (p : InputPump) (bytes : List UInt8) (written : Nat) :
    WriteOutcome → Option InputPump
  | .accepted count =>
      if bytes.length < written + count then none
      -- the loop would not end
      else if count = 0 then some (p.endError ⟨"SSH session write returned zero bytes"⟩)
      else some { p with pc := .writing bytes (written + count) }
  | .cancelled => some p.endOk
  | .failed error => some (p.endError error)
  | .panicked => some { p with pc := .panicked }

/-- One turn of the loop in `write_all_to_shell`. -/
def write (p : InputPump) (outcome : WriteOutcome) : Option (InputPump × List SessionEvent) :=
  match p.pc with
  | .writing bytes written =>
      if written < bytes.length then
        (p.afterWrite bytes written outcome).map (·, [.write bytes written outcome])
      else none
  | _ => none

/-- The state after a call that ends the pump unless it fails or panics. -/
def afterCall (p : InputPump) : CallOutcome → InputPump
  | .done => p.endOk
  | .failed error => p.endError error
  | .panicked => { p with pc := .panicked }

def resize (p : InputPump) (outcome : Option CallOutcome) :
    Option (InputPump × List SessionEvent) :=
  match p.pc with
  | .resizing size =>
      let p' :=
        match outcome with
        | none => p.endOk
        | some .done => { p with pc := .polling }
        | some outcome => p.afterCall outcome
      some (p', [.resize size outcome])
  | _ => none

/-- One step of `pump_input_events`, with what it adds to the history. -/
def step (p : InputPump) : PumpLabel → Option (InputPump × List SessionEvent)
  | .raise => some ({ p with cancelled := true }, [])
  | .advance => p.advance
  | .recv outcome => p.recv outcome
  | .write outcome => p.write outcome
  | .resize outcome => p.resize outcome
  | .finishInput outcome =>
      if p.pc = .finishing then some (p.afterCall outcome, [.finishInput outcome]) else none
  | .close outcome =>
      if p.pc = .closing then some (p.afterCall outcome, [.close .cancelEvent outcome]) else none

/-- Everything a step of the pump can do: the state before, the entries it adds to the
history and the state after. -/
inductive Step (p : InputPump) : List SessionEvent → InputPump → Prop
  | raise : Step p [] { p with cancelled := true }
  | pollCancelled (hpc : p.pc = .polling) (hflag : p.cancelled = true) : Step p [] p.endOk
  | wait (hpc : p.pc = .polling) (hflag : p.cancelled = false) :
      Step p [] { p with pc := .receiving }
  | take {event : SshInputEvent} {inbox : List SshInputEvent} (hpc : p.pc = .receiving)
      (hinbox : p.inbox = event :: inbox) : Step p [] { p with pc := .woken event, inbox }
  | timeout (hpc : p.pc = .receiving) : Step p [] { p with pc := .polling }
  | disconnect (hpc : p.pc = .receiving) (hinbox : p.inbox = []) :
      Step p [] { p with pc := .woken .eof }
  | wakeCancelled {event : SshInputEvent} (hpc : p.pc = .woken event)
      (hflag : p.cancelled = true) : Step p [] p.endOk
  | handle {event : SshInputEvent} (hpc : p.pc = .woken event) (hflag : p.cancelled = false) :
      Step p [.handled event] { p with pc := dispatch event }
  | wrote {bytes : List UInt8} {written count : Nat} (hpc : p.pc = .writing bytes written)
      (hpos : 0 < count) (hle : written + count ≤ bytes.length) :
      Step p [.write bytes written (.accepted count)]
        { p with pc := .writing bytes (written + count) }
  | writeCancelled {bytes : List UInt8} {written : Nat} (hpc : p.pc = .writing bytes written)
      (hlt : written < bytes.length) : Step p [.write bytes written .cancelled] p.endOk
  | writeFailed {bytes : List UInt8} {written : Nat} {outcome : WriteOutcome}
      {error : SshSessionError} (hpc : p.pc = .writing bytes written)
      (houtcome : outcome = .failed error ∨
        outcome = .accepted 0 ∧ error = ⟨"SSH session write returned zero bytes"⟩) :
      Step p [.write bytes written outcome] (p.endError error)
  | writePanicked {bytes : List UInt8} {written : Nat} (hpc : p.pc = .writing bytes written) :
      Step p [.write bytes written .panicked] { p with pc := .panicked }
  | written {bytes : List UInt8} {written : Nat} (hpc : p.pc = .writing bytes written)
      (hge : bytes.length ≤ written) :
      Step p []
        { p with pc := .polling, inputBytes := saturatingAdd p.inputBytes bytes.length }
  | resized {size : TerminalSize} (hpc : p.pc = .resizing size) :
      Step p [.resize size (some .done)] { p with pc := .polling }
  | resizeCancelled {size : TerminalSize} (hpc : p.pc = .resizing size) :
      Step p [.resize size none] p.endOk
  | resizeFailed {size : TerminalSize} {outcome : CallOutcome} (hpc : p.pc = .resizing size)
      (houtcome : outcome ≠ .done) : Step p [.resize size (some outcome)] (p.afterCall outcome)
  | cancel (hpc : p.pc = .cancelling) : Step p [] { p with pc := .closing, cancelled := true }
  | closed {outcome : CallOutcome} (hpc : p.pc = .closing) :
      Step p [.close .cancelEvent outcome] (p.afterCall outcome)
  | finished {outcome : CallOutcome} (hpc : p.pc = .finishing) :
      Step p [.finishInput outcome] (p.afterCall outcome)

/-- The pump's own control flow takes steps of `Step`. -/
theorem advance_sound {p p' : InputPump} {entries : List SessionEvent}
    (h : p.advance = some (p', entries)) : Step p entries p' := by
  unfold advance at h
  split at h
  · rename_i hpc
    split at h <;> rename_i hflag <;> obtain ⟨rfl, rfl⟩ := Prod.mk.inj (Option.some.inj h)
    · exact .pollCancelled hpc hflag
    · exact .wait hpc (by simpa using hflag)
  · rename_i event hpc
    split at h <;> rename_i hflag <;> obtain ⟨rfl, rfl⟩ := Prod.mk.inj (Option.some.inj h)
    · exact .wakeCancelled hpc hflag
    · exact .handle hpc (by simpa using hflag)
  · rename_i bytes written hpc
    split at h
    · simp at h
    · rename_i hge
      rcases Prod.mk.inj (Option.some.inj h) with ⟨rfl, rfl⟩
      exact .written hpc (by omega)
  · rename_i hpc
    rcases Prod.mk.inj (Option.some.inj h) with ⟨rfl, rfl⟩
    exact .cancel hpc
  · simp at h

/-- A wait on the channel takes steps of `Step`: an event, a timeout or the disconnection. -/
theorem recv_sound {p p' : InputPump} {outcome : RecvOutcome} {entries : List SessionEvent}
    (h : p.recv outcome = some (p', entries)) : Step p entries p' := by
  unfold recv at h
  split at h
  · rename_i event inbox hpc hinbox
    rcases Prod.mk.inj (Option.some.inj h) with ⟨rfl, rfl⟩
    exact .take hpc hinbox
  · rename_i hpc
    rcases Prod.mk.inj (Option.some.inj h) with ⟨rfl, rfl⟩
    exact .timeout hpc
  · rename_i hpc hinbox
    rcases Prod.mk.inj (Option.some.inj h) with ⟨rfl, rfl⟩
    exact .disconnect hpc hinbox
  · simp at h

/-- Each answer of the writer to a write is a step of `Step`. -/
theorem write_sound {p p' : InputPump} {outcome : WriteOutcome} {entries : List SessionEvent}
    (h : p.write outcome = some (p', entries)) : Step p entries p' := by
  unfold write at h
  split at h
  · rename_i bytes written hpc
    split at h
    · rename_i hlt
      simp only [Option.map_eq_some_iff, Prod.mk.injEq] at h
      rcases h with ⟨q, hq, rfl, rfl⟩
      cases outcome with
      | accepted count =>
          simp only [afterWrite] at hq
          split at hq
          · simp at hq
          · rename_i hle
            split at hq
            · -- an answer of zero bytes is an error of the pump's own
              rename_i hzero
              obtain rfl := Option.some.inj hq
              exact .writeFailed hpc (.inr ⟨by rw [hzero], rfl⟩)
            · obtain rfl := Option.some.inj hq
              exact .wrote hpc (by omega) (by omega)
      | cancelled =>
          obtain rfl := Option.some.inj hq
          exact .writeCancelled hpc hlt
      | failed error =>
          obtain rfl := Option.some.inj hq
          exact .writeFailed hpc (.inl rfl)
      | panicked =>
          obtain rfl := Option.some.inj hq
          exact .writePanicked hpc
    · simp at h
  · simp at h

/-- Each answer to a resize is a step of `Step`. -/
theorem resize_sound {p p' : InputPump} {outcome : Option CallOutcome}
    {entries : List SessionEvent} (h : p.resize outcome = some (p', entries)) :
    Step p entries p' := by
  unfold resize at h
  split at h
  · rename_i size hpc
    rcases Prod.mk.inj (Option.some.inj h) with ⟨rfl, rfl⟩
    split
    · exact .resizeCancelled hpc
    · exact .resized hpc
    · rename_i outcome hne
      exact .resizeFailed hpc fun heq => hne (heq ▸ rfl)
  · simp at h

/-- `Step` has every step of the pump. -/
theorem step_sound {p p' : InputPump} {l : PumpLabel} {entries : List SessionEvent}
    (h : p.step l = some (p', entries)) : Step p entries p' := by
  cases l with
  | raise =>
      rcases Prod.mk.inj (Option.some.inj h) with ⟨rfl, rfl⟩
      exact .raise
  | advance => exact advance_sound h
  | recv outcome => exact recv_sound h
  | write outcome => exact write_sound h
  | resize outcome => exact resize_sound h
  | finishInput outcome =>
      simp only [step] at h
      split at h
      · rename_i hpc
        rcases Prod.mk.inj (Option.some.inj h) with ⟨rfl, rfl⟩
        exact .finished hpc
      · simp at h
  | close outcome =>
      simp only [step] at h
      split at h
      · rename_i hpc
        rcases Prod.mk.inj (Option.some.inj h) with ⟨rfl, rfl⟩
        exact .closed hpc
      · simp at h

end InputPump

/-- The pump and its history. -/
def inputPump : Machine (InputPump × List SessionEvent) PumpLabel where
  step s l := (s.1.step l).map fun (p, events) => (p, s.2 ++ events)

/-- The pump before its first step. -/
def InputPump.init (events : List SshInputEvent) : InputPump where
  inbox := events

/-! ## What the writer is given -/

/-- What reaches the data path of the writer. -/
inductive Effect where
  | byte (b : UInt8)
  | resize (size : TerminalSize)
  | finish
deriving DecidableEq, Repr

/-- The bytes among the effects, in order. -/
def bytesOf : List Effect → List UInt8
  | [] => []
  | .byte b :: effects => b :: bytesOf effects
  | .resize _ :: effects => bytesOf effects
  | .finish :: effects => bytesOf effects

/-- The resizes among the effects, in order. -/
def sizesOf : List Effect → List TerminalSize
  | [] => []
  | .byte _ :: effects => sizesOf effects
  | .resize size :: effects => size :: sizesOf effects
  | .finish :: effects => sizesOf effects

/-- The bytes of two lists of effects are put together. -/
@[simp] theorem bytesOf_append (xs ys : List Effect) :
    bytesOf (xs ++ ys) = bytesOf xs ++ bytesOf ys := by
  induction xs with
  | nil => rfl
  | cons x xs ih => cases x <;> simp [bytesOf, ih]

/-- The sizes of two lists of effects are put together. -/
@[simp] theorem sizesOf_append (xs ys : List Effect) :
    sizesOf (xs ++ ys) = sizesOf xs ++ sizesOf ys := by
  induction xs with
  | nil => rfl
  | cons x xs ih => cases x <;> simp [sizesOf, ih]

@[simp] theorem bytesOf_map_byte (bytes : List UInt8) : bytesOf (bytes.map .byte) = bytes := by
  induction bytes with
  | nil => rfl
  | cons b bs ih => simp [bytesOf, ih]

@[simp] theorem sizesOf_map_byte (bytes : List UInt8) : sizesOf (bytes.map .byte) = [] := by
  induction bytes with
  | nil => rfl
  | cons b bs ih => simp [sizesOf, ih]

namespace SessionEvent

/-- The bytes a call makes the writer accept. -/
def accepted : SessionEvent → List UInt8
  | write bytes written (.accepted count) => (bytes.drop written).take count
  | _ => []

def effects : SessionEvent → List Effect
  | resize size _ => [.resize size]
  | finishInput _ => [.finish]
  | entry => entry.accepted.map .byte

def size? : SessionEvent → Option TerminalSize
  | resize size _ => some size
  | _ => none

/-- The calls that carry input: writes, resizes and the end of input. -/
def onDataPath : SessionEvent → Bool
  | write .. => true
  | resize .. => true
  | finishInput _ => true
  | _ => false

end SessionEvent

/-- The bytes the writer accepted, in order. -/
def accepted (history : List SessionEvent) : List UInt8 :=
  history.flatMap SessionEvent.accepted

def effects (history : List SessionEvent) : List Effect :=
  history.flatMap SessionEvent.effects

namespace SshInputEvent

def bytes : SshInputEvent → List UInt8
  | data bytes => bytes
  | _ => []

def size? : SshInputEvent → Option TerminalSize
  | resize size => some size
  | _ => none

/-- Cancel, Eof and Error end the pump; a disconnected sender is an Eof. -/
def terminal : SshInputEvent → Bool
  | cancel => true
  | eof => true
  | error _ => true
  | _ => false

end SshInputEvent

/-- The concatenation of the Data payloads. -/
def inputPayload (events : List SshInputEvent) : List UInt8 :=
  events.flatMap SshInputEvent.bytes

/-- What a writer that accepts everything is given for a sequence of events, the sender
disconnecting after the last one. -/
def script : List SshInputEvent → List Effect
  | [] => [.finish]
  | .data bytes :: events => bytes.map .byte ++ script events
  | .resize size :: events => .resize size :: script events
  | .eof :: _ => [.finish]
  | .cancel :: _ => []
  | .error _ :: _ => []

/-- What the pump would still give to a writer that accepts everything. -/
def InputPump.remaining (p : InputPump) : List Effect :=
  match p.pc with
  | .polling => script p.inbox
  | .receiving => script p.inbox
  | .woken event => script (event :: p.inbox)
  | .writing bytes written => (bytes.drop written).map .byte ++ script p.inbox
  | .resizing size => .resize size :: script p.inbox
  | .finishing => [.finish]
  | _ => []

@[simp] theorem InputPump.remaining_endOk (p : InputPump) : p.endOk.remaining = [] := rfl

@[simp] theorem InputPump.remaining_endError (p : InputPump) (error : SshSessionError) :
    (p.endError error).remaining = [] := rfl

@[simp] theorem InputPump.remaining_afterCall (p : InputPump) (outcome : CallOutcome) :
    (p.afterCall outcome).remaining = [] := by
  cases outcome <;> rfl

/-- A pump that is writing has the rest of the bytes to give before the events. -/
theorem InputPump.remaining_writing {p : InputPump} {bytes : List UInt8} {written : Nat}
    (hpc : p.pc = .writing bytes written) :
    p.remaining = (bytes.drop written).map .byte ++ script p.inbox := by
  simp only [remaining, hpc]

theorem InputPump.remaining_resizing {p : InputPump} {size : TerminalSize}
    (hpc : p.pc = .resizing size) : p.remaining = .resize size :: script p.inbox := by
  simp only [remaining, hpc]

theorem InputPump.remaining_finishing {p : InputPump} (hpc : p.pc = .finishing) :
    p.remaining = [.finish] := by
  simp only [remaining, hpc]

@[simp] theorem effects_nil : effects [] = [] := rfl

theorem effects_append (xs ys : List SessionEvent) :
    effects (xs ++ ys) = effects xs ++ effects ys :=
  List.flatMap_append

theorem accepted_append (xs ys : List SessionEvent) :
    accepted (xs ++ ys) = accepted xs ++ accepted ys :=
  List.flatMap_append

@[simp] theorem effects_singleton (entry : SessionEvent) : effects [entry] = entry.effects := by
  simp [effects]

/-- A step gives the writer the next effects, and never others. -/
theorem InputPump.Step.effects_prefix {p p' : InputPump} {entries : List SessionEvent}
    (h : Step p entries p') : effects entries ++ p'.remaining <+: p.remaining := by
  cases h with
  | raise => exact List.prefix_refl _
  | pollCancelled hpc => simp
  | wait hpc => simp [remaining, hpc]
  | take hpc hinbox => simp [remaining, hpc, hinbox]
  | timeout hpc => simp [remaining, hpc]
  | disconnect hpc hinbox => simp [remaining, hpc, hinbox, script]
  | wakeCancelled hpc => simp
  | @handle event hpc =>
      cases event <;>
        simp [remaining, hpc, dispatch, script, SessionEvent.effects, SessionEvent.accepted]
  | @wrote bytes written count hpc hpos hle =>
      -- what was accepted is the front of what was left of the bytes
      have hsplit : (bytes.drop written).take count ++ bytes.drop (written + count) =
          bytes.drop written := by
        rw [← List.drop_drop, List.take_append_drop]
      have heffects : effects [.write bytes written (.accepted count)] =
          ((bytes.drop written).take count).map .byte := effects_singleton _
      have hremaining : p.remaining =
          ((bytes.drop written).take count).map .byte ++
            InputPump.remaining { p with pc := .writing bytes (written + count) } := by
        calc p.remaining
            = (bytes.drop written).map .byte ++ script p.inbox := remaining_writing hpc
          _ = ((bytes.drop written).take count ++ bytes.drop (written + count)).map .byte ++
                script p.inbox := by rw [hsplit]
          _ = _ := by rw [List.map_append, List.append_assoc, remaining_writing rfl]
      exact ⟨[], by rw [List.append_nil, heffects, hremaining]⟩
  -- the other answers end the pump: what is left is dropped
  | writeCancelled hpc => simp [SessionEvent.effects, SessionEvent.accepted]
  | writeFailed hpc houtcome =>
      rcases houtcome with rfl | ⟨rfl, -⟩ <;> simp [SessionEvent.effects, SessionEvent.accepted]
  | writePanicked hpc => simp [SessionEvent.effects, SessionEvent.accepted, remaining]
  | written hpc hge => simp [remaining, hpc, List.drop_eq_nil_of_le hge]
  | resized hpc => simp [SessionEvent.effects, remaining, hpc]
  | resizeCancelled hpc => simp [SessionEvent.effects, remaining_resizing hpc]
  | resizeFailed hpc => simp [SessionEvent.effects, remaining_resizing hpc]
  | cancel hpc => simp [remaining, hpc]
  | closed hpc => simp [SessionEvent.effects, SessionEvent.accepted]
  | finished hpc => simp [SessionEvent.effects, remaining_finishing hpc]

/-- What the writer got and what the pump still holds make up the script. -/
def EffectInv (events : List SshInputEvent) (s : InputPump × List SessionEvent) : Prop :=
  effects s.2 ++ s.1.remaining <+: script events

/-- A step of the machine is a step of the pump, with its entries behind the history. -/
theorem step_of_inputPump {s s' : InputPump × List SessionEvent} {l : PumpLabel}
    (h : inputPump.step s l = some s') :
    ∃ entries, InputPump.Step s.1 entries s'.1 ∧ s'.2 = s.2 ++ entries := by
  simp only [inputPump, Option.map_eq_some_iff] at h
  rcases h with ⟨⟨p, entries⟩, hstep, rfl⟩
  exact ⟨entries, InputPump.step_sound hstep, rfl⟩

/-- What the writer got and what the pump holds stay a prefix of the script. -/
theorem effect_step_inv (events : List SshInputEvent) :
    ∀ s l s', inputPump.step s l = some s' → EffectInv events s → EffectInv events s' := by
  intro s l s' h hinv
  rcases step_of_inputPump h with ⟨entries, hstep, hhistory⟩
  have hprefix := (List.prefix_append_right_inj (effects s.2)).mpr hstep.effects_prefix
  rw [EffectInv, hhistory, effects_append, List.append_assoc]
  exact hprefix.trans hinv

/-- The writer is given a beginning of the script. -/
theorem effects_prefix_script {events : List SshInputEvent} {trace : List PumpLabel}
    {p : InputPump} {history : List SessionEvent}
    (hrun : inputPump.run (.init events, []) trace = some (p, history)) :
    effects history <+: script events := by
  have hinit : EffectInv events (.init events, []) := List.prefix_refl _
  exact (List.prefix_append _ _).trans (Machine.run_invariant (effect_step_inv events) hrun hinit)

/-! ## Reading the script -/

/-- The bytes among the effects are those that the writer accepted. -/
theorem bytesOf_effects (history : List SessionEvent) :
    bytesOf (effects history) = accepted history := by
  induction history with
  | nil => rfl
  | cons entry history ih =>
      have hentry : bytesOf entry.effects = entry.accepted := by
        cases entry with
        | resize size outcome => rfl
        | finishInput outcome => rfl
        | handled event => rfl
        | close site outcome => rfl
        | write bytes written outcome => exact bytesOf_map_byte _
      rw [← List.singleton_append, effects_append, accepted_append, bytesOf_append, ih,
        effects_singleton, hentry]
      simp [accepted]

/-- The sizes among the effects are those that the writer was given. -/
theorem sizesOf_effects (history : List SessionEvent) :
    sizesOf (effects history) = history.filterMap SessionEvent.size? := by
  induction history with
  | nil => rfl
  | cons entry history ih =>
      rw [← List.singleton_append, effects_append, sizesOf_append, List.filterMap_append, ih,
        effects_singleton]
      cases entry with
      | resize size outcome => rfl
      | finishInput outcome => rfl
      | handled event => rfl
      | close site outcome => rfl
      | write bytes written outcome => simp [SessionEvent.effects, SessionEvent.size?]

/-- The bytes of the script are Data payloads, in order. -/
theorem bytesOf_script (events : List SshInputEvent) :
    bytesOf (script events) <+: inputPayload events := by
  induction events with
  | nil => exact List.nil_prefix
  | cons event events ih =>
      cases event with
      | data bytes => simpa [script, inputPayload, SshInputEvent.bytes] using ih
      | resize size => simpa [script, inputPayload, SshInputEvent.bytes, bytesOf] using ih
      | cancel => exact List.nil_prefix
      | eof => exact List.nil_prefix
      | error message => exact List.nil_prefix

/-- An effect that is no byte is not among the bytes in front. -/
theorem append_cons_eq_append {xs ys zs : List Effect} {x : Effect} {bytes : List UInt8}
    (hx : ∀ b, x ≠ .byte b) (h : bytes.map .byte ++ zs = xs ++ x :: ys) :
    ∃ rest, xs = bytes.map .byte ++ rest ∧ zs = rest ++ x :: ys := by
  rcases List.append_eq_append_iff.mp h with ⟨rest, hxs, hzs⟩ | ⟨rest, hbytes, hrest⟩
  · exact ⟨rest, hxs, hzs⟩
  · -- the bytes themselves hold no other effect
    cases rest with
    | nil => exact ⟨[], by simpa using hbytes.symm, by simpa using hrest.symm⟩
    | cons r rest =>
        rcases List.cons.inj hrest with ⟨rfl, -⟩
        have hmem : x ∈ bytes.map Effect.byte := hbytes ▸ by simp
        rcases List.mem_map.mp hmem with ⟨b, -, hb⟩
        exact absurd hb.symm (hx b)

/-- A resize of the script stands between the bytes of the earlier and of the later Data
events. -/
theorem script_resize {events : List SshInputEvent} {xs ys : List Effect} {size : TerminalSize}
    (h : script events = xs ++ .resize size :: ys) :
    ∃ before after, events = before ++ .resize size :: after ∧
      bytesOf xs = inputPayload before ∧
      sizesOf xs = before.filterMap SshInputEvent.size? ∧
      bytesOf ys <+: inputPayload after := by
  induction events generalizing xs with
  | nil =>
      exfalso
      cases xs <;> simp [script] at h
  | cons event events ih =>
      cases event with
      | data bytes =>
          rcases append_cons_eq_append (by simp) h with ⟨rest, rfl, hrest⟩
          rcases ih hrest with ⟨before, after, rfl, hpayload, hsizes, hlater⟩
          refine ⟨.data bytes :: before, after, rfl, ?_, ?_, hlater⟩
          · simp [hpayload, inputPayload, SshInputEvent.bytes]
          · rw [sizesOf_append, sizesOf_map_byte, List.nil_append, hsizes]
            rfl
      | resize other =>
          -- the resize is this one, or it comes later
          cases xs with
          | nil =>
              rcases List.cons.inj h with ⟨hsize, rfl⟩
              obtain rfl : other = size := by simpa using hsize
              exact ⟨[], events, rfl, rfl, rfl, bytesOf_script events⟩
          | cons x xs =>
              rcases List.cons.inj h with ⟨rfl, hrest⟩
              rcases ih hrest with ⟨before, after, rfl, hpayload, hsizes, hlater⟩
              refine ⟨.resize other :: before, after, rfl, ?_, ?_, hlater⟩
              · simpa [bytesOf, inputPayload, SshInputEvent.bytes] using hpayload
              · exact congrArg (other :: ·) hsizes
      -- behind a cancellation, an end or an error the script has no resize
      | cancel => simp [script] at h
      | eof =>
          exfalso
          cases xs <;> simp [script] at h
      | error message => simp [script] at h

/-- The end of input is the last effect of the script, after the bytes of all earlier
Data events. -/
theorem script_finish {events : List SshInputEvent} {xs ys : List Effect}
    (h : script events = xs ++ .finish :: ys) :
    ys = [] ∧ ∃ before rest, events = before ++ rest ∧
      (rest = [] ∨ ∃ after, rest = .eof :: after) ∧ bytesOf xs = inputPayload before := by
  induction events generalizing xs with
  | nil =>
      obtain ⟨rfl, rfl⟩ : xs = [] ∧ ys = [] := by
        cases xs <;> simp_all [script]
      exact ⟨rfl, [], [], rfl, .inl rfl, rfl⟩
  | cons event events ih =>
      cases event with
      | data bytes =>
          rcases append_cons_eq_append (by simp) h with ⟨rest, rfl, hrest⟩
          rcases ih hrest with ⟨hys, before, after, rfl, hafter, hpayload⟩
          refine ⟨hys, .data bytes :: before, after, rfl, hafter, ?_⟩
          simp [hpayload, inputPayload, SshInputEvent.bytes]
      | resize size =>
          cases xs with
          | nil => simp [script] at h
          | cons x xs =>
              rcases List.cons.inj h with ⟨rfl, hrest⟩
              rcases ih hrest with ⟨hys, before, after, rfl, hafter, hpayload⟩
              refine ⟨hys, .resize size :: before, after, rfl, hafter, ?_⟩
              simpa [bytesOf, inputPayload, SshInputEvent.bytes] using hpayload
      -- a cancelled input is not finished
      | cancel => simp [script] at h
      | eof =>
          -- the end of the input is the last effect
          obtain ⟨rfl, rfl⟩ : xs = [] ∧ ys = [] := by
            cases xs <;> simp_all [script]
          exact ⟨rfl, [], _, rfl, .inr ⟨events, rfl⟩, rfl⟩
      | error message => simp [script] at h

theorem mem_effects_finish {history : List SessionEvent} {outcome : CallOutcome}
    (h : .finishInput outcome ∈ history) : Effect.finish ∈ effects history :=
  List.mem_flatMap.mpr ⟨_, h, by simp [SessionEvent.effects]⟩

/-! ## Terminal events -/

/-- After a terminal event, the only call on the data path is the one that finishes the
input for an Eof. -/
def AfterTerminal (earlier later : SessionEvent) : Prop :=
  ∀ event, earlier = .handled event → event.terminal = true → later.onDataPath = true →
    event = .eof ∧ ∃ outcome, later = .finishInput outcome

/-- The terminal events a pump may have handled when it is at `pc`. -/
def PumpPc.allows : PumpPc → SshInputEvent → Prop
  | .polling, _ => False
  | .receiving, _ => False
  | .woken _, _ => False
  | .writing _ _, _ => False
  | .resizing _, _ => False
  | .finishing, event => event = .eof
  | _, _ => True

/-- The history respects terminal events, and the pump has handled none while it is
still in its event loop. -/
def TerminalInv (s : InputPump × List SessionEvent) : Prop :=
  s.2.Pairwise AfterTerminal ∧
    ∀ event, .handled event ∈ s.2 → event.terminal = true → s.1.pc.allows event

theorem InputPump.allows_afterCall (p : InputPump) (outcome : CallOutcome)
    (event : SshInputEvent) : (p.afterCall outcome).pc.allows event := by
  cases outcome <;> trivial

/-- A step allows more than before, unless it handles an event itself, and calls the data
path only when the events handled so far allow it. -/
theorem InputPump.Step.allows {p p' : InputPump} {entries : List SessionEvent}
    (h : Step p entries p') :
    (∀ event, p.pc.allows event → p'.pc.allows event) ∧
      (∀ event, .handled event ∈ entries → event.terminal = true → p'.pc.allows event) ∧
      entries.Pairwise AfterTerminal ∧
      ∀ event, p.pc.allows event → ∀ entry ∈ entries, entry.onDataPath = true →
        event = .eof ∧ ∃ outcome, entry = .finishInput outcome := by
  cases h with
  | raise => exact ⟨fun _ h => h, by simp, .nil, by simp⟩
  | pollCancelled hpc | wakeCancelled hpc =>
      exact ⟨fun _ _ => trivial, by simp, .nil, by simp⟩
  | @handle event hpc =>
      -- a terminal event moves the pump to a place that allows exactly it
      cases event <;>
        simp [hpc, PumpPc.allows, dispatch, SshInputEvent.terminal, SessionEvent.onDataPath]
  | wait hpc | take hpc | timeout hpc | disconnect hpc | cancel hpc => simp [hpc, PumpPc.allows]
  | wrote hpc | writeCancelled hpc | writeFailed hpc | writePanicked hpc | written hpc
  | resized hpc | resizeCancelled hpc | resizeFailed hpc =>
      -- these calls belong to the event loop, which no terminal event leaves running
      simp [hpc, PumpPc.allows]
  | closed hpc => simp [allows_afterCall, SessionEvent.onDataPath]
  | @finished outcome hpc =>
      -- the pump finishes its input only for an Eof
      refine ⟨fun event _ => p.allows_afterCall outcome event, by simp, by simp, ?_⟩
      intro event hevent
      obtain rfl : event = .eof := by simpa [hpc, PumpPc.allows] using hevent
      simp

/-- Behind an event that ends the input no other is handled. -/
theorem terminal_step_inv :
    ∀ s l s', inputPump.step s l = some s' → TerminalInv s → TerminalInv s' := by
  intro s l s' h hinv
  rcases step_of_inputPump h with ⟨entries, hstep, hhistory⟩
  rcases hstep.allows with ⟨hkeep, hnew, hpairs, hcalls⟩
  rcases hinv with ⟨hpairwise, hallows⟩
  constructor
  · rw [hhistory, List.pairwise_append]
    refine ⟨hpairwise, hpairs, ?_⟩
    rintro earlier hearlier later hlater event rfl hterminal hpath
    exact hcalls event (hallows event hearlier hterminal) later hlater hpath
  · intro event hmem hterminal
    rw [hhistory, List.mem_append] at hmem
    rcases hmem with hold | hentry
    · exact hkeep event (hallows event hold hterminal)
    · exact hnew event hentry hterminal

/-! ## The stream -/

/-- The input stream stays intact whatever the events, the writer and the moment of the
cancellation are:

1. the accepted bytes are a prefix of the Data payloads;
2. a resize reaches the writer exactly between the bytes of the earlier and of the later
   Data events;
3. the input is finished at most once, after every byte of the earlier Data events;
4. after a terminal event, nothing but that one call reaches the data path. -/
theorem input_stream_intact (events : List SshInputEvent) (trace : List PumpLabel)
    {p : InputPump} {history : List SessionEvent}
    (hrun : inputPump.run (.init events, []) trace = some (p, history)) :
    accepted history <+: inputPayload events ∧
    (∀ pre size outcome post, history = pre ++ .resize size outcome :: post →
      ∃ before after, events = before ++ .resize size :: after ∧
        accepted pre = inputPayload before ∧
        pre.filterMap SessionEvent.size? = before.filterMap SshInputEvent.size? ∧
        accepted post <+: inputPayload after) ∧
    (∀ pre outcome post, history = pre ++ .finishInput outcome :: post →
      (∀ other, .finishInput other ∉ pre ++ post) ∧
      ∃ before rest, events = before ++ rest ∧ (rest = [] ∨ ∃ after, rest = .eof :: after) ∧
        accepted pre = inputPayload before) ∧
    history.Pairwise AfterTerminal := by
  rcases effects_prefix_script hrun with ⟨rest, hscript⟩
  have hinit : TerminalInv (.init events, []) := ⟨.nil, by simp⟩
  refine ⟨?_, ?_, ?_, (Machine.run_invariant terminal_step_inv hrun hinit).1⟩
  · have hbytes := bytesOf_script events
    rw [← hscript, bytesOf_append, bytesOf_effects] at hbytes
    exact (List.prefix_append _ _).trans hbytes
  · rintro pre size outcome post rfl
    have hsplit : script events = effects pre ++ .resize size :: (effects post ++ rest) := by
      rw [← hscript, effects_append, ← List.singleton_append, effects_append]
      simp [SessionEvent.effects]
    -- the resize is one of the script, with the same bytes before it
    rcases script_resize hsplit with ⟨before, after, hevents, hbytes, hsizes, hlater⟩
    rw [bytesOf_effects] at hbytes
    rw [sizesOf_effects] at hsizes
    rw [bytesOf_append, bytesOf_effects] at hlater
    exact ⟨before, after, hevents, hbytes, hsizes, (List.prefix_append _ _).trans hlater⟩
  · rintro pre outcome post rfl
    have hsplit : script events = effects pre ++ .finish :: (effects post ++ rest) := by
      rw [← hscript, effects_append, ← List.singleton_append, effects_append]
      simp [SessionEvent.effects]
    rcases script_finish hsplit with ⟨hlast, before, after, hevents, hafter, hbytes⟩
    rw [bytesOf_effects] at hbytes
    refine ⟨?_, before, after, hevents, hafter, hbytes⟩
    intro other hmem
    rcases List.mem_append.mp hmem with hpre | hpost
    · -- an earlier finish would have been the last effect
      rcases List.append_of_mem (mem_effects_finish hpre) with ⟨xs, ys, hxs⟩
      rw [hxs, List.append_assoc, List.cons_append] at hsplit
      simpa using (script_finish hsplit).1
    · have hnone : effects post = [] := (List.append_eq_nil_iff.mp hlast).1
      have hfinish := mem_effects_finish hpost
      rw [hnone] at hfinish
      simp at hfinish

/-- Two short writes and a resize; the flag is raised before the next event is handled. -/
def exampleTrace : List PumpLabel :=
  [.advance, .recv .event, .advance, .write (.accepted 2), .write (.accepted 1), .advance,
    .advance, .recv .timeout, .advance, .recv .event, .advance, .resize (some .done),
    .advance, .recv .event, .raise, .advance]

def exampleEvents : List SshInputEvent :=
  [.data [1, 2, 3], .resize ⟨80, 24⟩, .data [4], .eof]

theorem exampleTrace_intact :
    ∃ p history, inputPump.run (.init exampleEvents, []) exampleTrace = some (p, history) ∧
      accepted history = [1, 2, 3] ∧ accepted history <+: inputPayload exampleEvents :=
  ⟨_, _, rfl, rfl, (input_stream_intact exampleEvents exampleTrace rfl).1⟩

/-! ## The byte count -/

/-- A write was answered with a cancellation after an earlier write of the same Data
event had been accepted. -/
def Torn (history : List SessionEvent) : Prop :=
  ∃ bytes written, 0 < written ∧ .write bytes written .cancelled ∈ history

/-- A history is torn if a part of it is. -/
theorem torn_append {xs ys : List SessionEvent} : Torn (xs ++ ys) ↔ Torn xs ∨ Torn ys := by
  simp only [Torn, List.mem_append]
  constructor
  · rintro ⟨bytes, written, hpos, h | h⟩
    · exact .inl ⟨bytes, written, hpos, h⟩
    · exact .inr ⟨bytes, written, hpos, h⟩
  · rintro (⟨bytes, written, hpos, h⟩ | ⟨bytes, written, hpos, h⟩)
    · exact ⟨bytes, written, hpos, .inl h⟩
    · exact ⟨bytes, written, hpos, .inr h⟩

/-- The counter is up to date: no Data event is half written. -/
def Counted (inputBytes : Nat) (history : List SessionEvent) : Prop :=
  inputBytes = min (accepted history).length u64Max ∧ ¬ Torn history

/-- The counter lags behind the accepted bytes by what the current Data event has
contributed; a pump that stops there keeps the lag, as `lost` bytes. -/
def CountInv (s : InputPump × List SessionEvent) : Prop :=
  match s.1.pc with
  | .writing bytes written =>
      written ≤ bytes.length ∧ written ≤ (accepted s.2).length ∧
        s.1.inputBytes = min ((accepted s.2).length - written) u64Max ∧ ¬ Torn s.2
  | .ended (.ok inputBytes) =>
      ∃ lost ≤ (accepted s.2).length,
        inputBytes = min ((accepted s.2).length - lost) u64Max ∧ (lost = 0 ↔ ¬ Torn s.2)
  | .ended (.error _) => True
  | .panicked => True
  | _ => Counted s.1.inputBytes s.2

/-- An entry without accepted bytes, and not torn, does not change the count. -/
theorem Counted.append {inputBytes : Nat} {history : List SessionEvent} {entry : SessionEvent}
    (h : Counted inputBytes history) (haccepted : entry.accepted = []) (htorn : ¬ Torn [entry]) :
    Counted inputBytes (history ++ [entry]) := by
  refine ⟨?_, fun ht => (torn_append.mp ht).elim h.2 htorn⟩
  rw [accepted_append, List.length_append]
  simpa [accepted, haccepted] using h.1

theorem Counted.endOk {p : InputPump} {history : List SessionEvent}
    (h : Counted p.inputBytes history) : CountInv (p.endOk, history) :=
  ⟨0, Nat.zero_le _, h.1, by simp [h.2]⟩

/-- A pump that ends with a call returns an exact count, or no count at all. -/
theorem Counted.afterCall {p : InputPump} {history : List SessionEvent}
    (h : Counted p.inputBytes history) (outcome : CallOutcome) :
    CountInv (p.afterCall outcome, history) := by
  cases outcome with
  | done => exact h.endOk
  | failed error => trivial
  | panicked => trivial

/-- Only a cancelled write tears the history. -/
theorem not_torn_singleton {entry : SessionEvent}
    (h : ∀ bytes written, entry ≠ .write bytes written .cancelled) : ¬ Torn [entry] := by
  rintro ⟨bytes, written, -, hmem⟩
  exact h bytes written (List.mem_singleton.mp hmem).symm

/-- Every step keeps the counter behind by what the current Data event has contributed. -/
theorem count_step_inv :
    ∀ s l s', inputPump.step s l = some s' → CountInv s → CountInv s' := by
  intro s l s' h hinv
  rcases step_of_inputPump h with ⟨entries, hstep, hhistory⟩
  rcases s with ⟨p, history⟩
  rcases s' with ⟨p', history'⟩
  obtain rfl : history' = history ++ entries := hhistory
  change InputPump.Step p entries p' at hstep
  cases hstep with
  | raise =>
      rw [List.append_nil]
      exact hinv
  | wait hpc | take hpc | timeout hpc | disconnect hpc | cancel hpc =>
      -- between events: the counter is up to date before and after
      simp only [CountInv, hpc] at hinv
      rw [List.append_nil]
      exact hinv
  | pollCancelled hpc | wakeCancelled hpc =>
      simp only [CountInv, hpc] at hinv
      rw [List.append_nil]
      exact hinv.endOk
  | @handle event hpc =>
      simp only [CountInv, hpc] at hinv
      have hcounted : Counted p.inputBytes (history ++ [.handled event]) :=
        hinv.append rfl (not_torn_singleton (by simp))
      cases event with
      | data bytes => exact ⟨Nat.zero_le _, Nat.zero_le _, hcounted⟩
      | resize size => exact hcounted
      | cancel => exact hcounted
      | eof => exact hcounted
      | error message => trivial
  | @wrote bytes written count hpc hpos hle =>
      -- both the accepted bytes and the lag grow by `count`
      simp only [CountInv, hpc] at hinv
      rcases hinv with ⟨hwritten, haccepted, hbytes, htorn⟩
      have hlength : (accepted (history ++ [.write bytes written (.accepted count)])).length =
          (accepted history).length + count := by
        rw [accepted_append, List.length_append]
        simp [accepted, SessionEvent.accepted]
        omega
      refine ⟨hle, by rw [hlength]; omega, ?_, ?_⟩
      · rw [hlength, hbytes]
        congr 1
        omega
      · rw [torn_append]
        exact not_or.mpr ⟨htorn, not_torn_singleton (by simp)⟩
  | @writeCancelled bytes written hpc hlt =>
      -- the pump returns its counter, so the lag is lost; it is zero unless torn
      simp only [CountInv, hpc] at hinv
      rcases hinv with ⟨hwritten, haccepted, hbytes, htorn⟩
      have hlength : (accepted (history ++ [.write bytes written .cancelled])).length =
          (accepted history).length := by
        rw [accepted_append, List.length_append]
        simp [accepted, SessionEvent.accepted]
      refine ⟨written, by rw [hlength]; exact haccepted, by rw [hlength]; exact hbytes, ?_⟩
      rw [torn_append]
      constructor
      · rintro rfl (ht | ⟨_, _, hpos, hmem⟩)
        · exact htorn ht
        · simp at hmem
          omega
      · intro hnot
        by_contra hne
        exact hnot (.inr ⟨bytes, written, by omega, by simp⟩)
  | writeFailed hpc houtcome => trivial
  | writePanicked hpc => trivial
  | @written bytes written hpc hge =>
      -- the whole event is counted at once, and saturates as the total does
      simp only [CountInv, hpc] at hinv
      rcases hinv with ⟨hwritten, haccepted, hbytes, htorn⟩
      rw [List.append_nil]
      refine ⟨?_, htorn⟩
      have heq : written = bytes.length := by omega
      simp only [saturatingAdd, hbytes, heq]
      omega
  | resized hpc =>
      simp only [CountInv, hpc] at hinv
      exact hinv.append rfl (not_torn_singleton (by simp))
  | resizeCancelled hpc =>
      simp only [CountInv, hpc] at hinv
      exact (hinv.append rfl (not_torn_singleton (by simp))).endOk
  | resizeFailed hpc | closed hpc | finished hpc =>
      simp only [CountInv, hpc] at hinv
      exact (hinv.append rfl (not_torn_singleton (by simp))).afterCall _

/-- A pump that ends well reports the accepted bytes, less those of a torn Data event. -/
theorem ended_count (events : List SshInputEvent) (trace : List PumpLabel) {p : InputPump}
    {history : List SessionEvent} {inputBytes : Nat}
    (hrun : inputPump.run (.init events, []) trace = some (p, history))
    (hpc : p.pc = .ended (.ok inputBytes)) :
    ∃ lost ≤ (accepted history).length,
      inputBytes = min ((accepted history).length - lost) u64Max ∧ (lost = 0 ↔ ¬ Torn history) := by
  have hinit : CountInv (.init events, []) := ⟨rfl, by simp [Torn]⟩
  have hinv := Machine.run_invariant count_step_inv hrun hinit
  simpa only [CountInv, hpc] using hinv

end Rssh
