import Rssh.Transfer.Path

/-!
# The SCP wire

`ScpWire` reads bytes, control lines and file contents off a channel, whose messages are
the list of events still to come, and sends acknowledgements. `World` puts it beside the
file system, and `ScpM` are the programs of the SCP fixture.

`remaining` is what is left of the byte stream up to the end of input. The lemmas about
`readByte`, `readLine` and `readExact` say what they do to it; how the stream was cut into
messages does not appear in them.
-/

namespace Rssh.Scp

open Posix

def maxControlLine : Nat := 8 * 1024
def maxFileSize : Nat := 16 * 1024 * 1024
def maxRecursionDepth : Nat := 32

structure ScpProtocolError where
deriving DecidableEq, Repr

/-- A message of the channel, or the deadline of one wait. -/
inductive WireEvent where
  | data (bytes : List UInt8)
  | eof
  | close
  | other
  | elapsed
deriving DecidableEq, Repr

/-- `ScpWire`. The channel delivers `events` and then ends; `sent` is what was handed to it,
and `sendFails` says which of the sends fail. -/
structure ScpWire where
  events : List WireEvent
  buffered : List UInt8 := []
  endOfInput : Bool := false
  incompleteControl : Bool := false
  sent : List (List UInt8) := []
  sendFails : Nat → Bool := fun _ => false

/-- The state of the fixture. -/
structure World (ν : Type) where
  wire : ScpWire
  os : Os ν

/-- The programs of the fixture. -/
abbrev ScpM (ν : Type) := EStateM ScpProtocolError (World ν)

/-- Those that work on the file system alone. -/
abbrev FsM (ν : Type) := EStateM ScpProtocolError (Os ν)

/-! ## Reading and sending -/

/-- Wait for the next byte, when nothing is buffered. -/
def readByteFrom (wire : ScpWire) : List WireEvent → Except ScpProtocolError UInt8 × ScpWire
  | [] => (.error {}, { wire with events := [] })
  | .elapsed :: rest => (.error {}, { wire with events := rest })
  | .eof :: rest => (.error {}, { wire with events := rest, endOfInput := true })
  | .close :: rest => (.error {}, { wire with events := rest, endOfInput := true })
  | .other :: rest => readByteFrom wire rest
  | .data [] :: rest => readByteFrom wire rest
  | .data (byte :: bytes) :: rest => (.ok byte, { wire with events := rest, buffered := bytes })

def ScpWire.readByte (wire : ScpWire) : Except ScpProtocolError UInt8 × ScpWire :=
  match wire.buffered with
  | byte :: bytes => (.ok byte, { wire with buffered := bytes })
  | [] => readByteFrom wire wire.events

/-- The loop of `read_line`, with the room that is left in the line. -/
def ScpWire.readLineFrom (line : List UInt8) : Nat → ScpWire →
    Except ScpProtocolError (List UInt8) × ScpWire
  | 0, wire => (.error {}, wire)
  | room + 1, wire =>
      match wire.readByte with
      | (.error error, wire) => (.error error, { wire with incompleteControl := !line.isEmpty })
      | (.ok byte, wire) =>
          if byte = 10 then (.ok (line ++ [byte]), { wire with incompleteControl := false })
          else readLineFrom (line ++ [byte]) room wire

def ScpWire.readLine (wire : ScpWire) : Except ScpProtocolError (List UInt8) × ScpWire :=
  wire.readLineFrom [] maxControlLine

def ScpWire.readExact (data : List UInt8) : Nat → ScpWire →
    Except ScpProtocolError (List UInt8) × ScpWire
  | 0, wire => (.ok data, wire)
  | length + 1, wire =>
      match wire.readByte with
      | (.error error, wire) => (.error error, wire)
      | (.ok byte, wire) => readExact (data ++ [byte]) length wire

def ScpWire.send (wire : ScpWire) (bytes : List UInt8) :
    Except ScpProtocolError Unit × ScpWire :=
  let wire' := { wire with sent := wire.sent ++ [bytes] }
  if wire.sendFails wire.sent.length then (.error {}, wire') else (.ok (), wire')

variable {ν : Type}

/-- Work on the wire. -/
def onWire {α : Type} (f : ScpWire → Except ScpProtocolError α × ScpWire) : ScpM ν α := fun w =>
  match f w.wire with
  | (.ok value, wire) => .ok value { w with wire }
  | (.error error, wire) => .error error { w with wire }

/-- Work on the wire and look at how it went. -/
def tryWire {α : Type} (f : ScpWire → Except ScpProtocolError α × ScpWire) :
    ScpM ν (Except ScpProtocolError α) := fun w =>
  .ok (f w.wire).1 { w with wire := (f w.wire).2 }

/-- Work on the file system. -/
def onFs {α : Type} (f : FsM ν α) : ScpM ν α := fun w =>
  match f w.os with
  | .ok value os => .ok value { w with os }
  | .error error os => .error error { w with os }

/-- A system call whose every error is a protocol error. -/
def fsCall {α : Type} (call : Sys ν α) : FsM ν α := fun os =>
  match call os with
  | .ok value os => .ok value os
  | .error _ os => .error {} os

/-- A system call whose error is looked at. -/
def fsTry {α : Type} (call : Sys ν α) : FsM ν (Except Errno α) := fun os =>
  match call os with
  | .ok value os => .ok (.ok value) os
  | .error errno os => .ok (.error errno) os

section Guards

variable {σ : Type}

def reject {α : Type} : EStateM ScpProtocolError σ α := throw {}

/-- Go on only if the condition holds. -/
def require (condition : Prop) [Decidable condition] : EStateM ScpProtocolError σ Unit :=
  if condition then pure () else reject

/-- Go on with the value, if there is one. -/
def orReject {α : Type} : Option α → EStateM ScpProtocolError σ α
  | some value => pure value
  | none => reject

end Guards

def sendAck : ScpM ν Unit := onWire (·.send [0])

/-- `expect_ack`. -/
def expectAck : ScpM ν Unit := do
  let byte ← onWire ScpWire.readByte
  require (byte = 0)

/-! ## Control lines -/

/-- `char::is_ascii_whitespace`. -/
def isAsciiWhitespace (c : Char) : Bool :=
  c == ' ' || c == '\t' || c == '\n' || c == '\x0c' || c == '\r'

/-- `str::split_ascii_whitespace`. -/
def splitAsciiWhitespace (text : List Char) : List (List Char) :=
  (text.splitOnP isAsciiWhitespace).filter (· ≠ [])

def u32Max : Nat := 2 ^ 32 - 1

/-- `parse_times`. -/
def parseTimes (line : List UInt8) : Bool :=
  match Text.decodeUtf8 line with
  | none => false
  | some text =>
      let fields := splitAsciiWhitespace (text.drop 1).dropLast
      fields.length == 4 &&
        fields.all fun field => (Text.parseUnsigned 10 (2 ^ 64 - 1) field).isSome

/-- The mode, size and name of a control line. -/
structure Control where
  mode : Nat
  size : Nat
  name : List Char
deriving DecidableEq, Repr

/-- `splitn(3, ' ')` and the parsing of its fields. -/
def parseFields (text : List Char) : Option Control :=
  match Text.splitOnce ' ' text with
  | none => none
  | some (mode, rest) =>
      match Text.splitOnce ' ' rest with
      | none => none
      | some (size, name) =>
          match Text.parseUnsigned 8 u32Max mode, Text.parseUnsigned 10 (2 ^ 64 - 1) size with
          | some mode, some size => some ⟨mode &&& 0o777, size, name⟩
          | _, _ => none

/-- `parse_control`. -/
def parseControl (line : List UInt8) (kind : UInt8) : Option Control :=
  if line.head? = some kind ∧ line.getLast? = some 10 then
    (Text.decodeUtf8 (line.drop 1).dropLast).bind parseFields
  else none

/-! ## The byte stream -/

/-- The bytes of the messages up to the end of input, a deadline or the end of the channel. -/
def streamBytes : List WireEvent → List UInt8
  | [] => []
  | .data bytes :: rest => bytes ++ streamBytes rest
  | .other :: rest => streamBytes rest
  | .eof :: _ => []
  | .close :: _ => []
  | .elapsed :: _ => []

/-- The stream is ended by the peer, not by a deadline or a broken channel. -/
def endsInput : List WireEvent → Bool
  | [] => false
  | .data _ :: rest => endsInput rest
  | .other :: rest => endsInput rest
  | .eof :: _ => true
  | .close :: _ => true
  | .elapsed :: _ => false

namespace ScpWire

/-- What is left of the byte stream. -/
def remaining (wire : ScpWire) : List UInt8 := wire.buffered ++ streamBytes wire.events

/-- `wire'` is `wire` after some bytes were taken off the stream. -/
structure Took (wire : ScpWire) (bytes : List UInt8) (wire' : ScpWire) : Prop where
  remaining : wire.remaining = bytes ++ wire'.remaining
  ends : endsInput wire'.events = endsInput wire.events
  endOfInput : wire'.endOfInput = wire.endOfInput
  incompleteControl : wire'.incompleteControl = wire.incompleteControl
  sent : wire'.sent = wire.sent
  sendFails : wire'.sendFails = wire.sendFails

theorem Took.refl (wire : ScpWire) : wire.Took [] wire :=
  ⟨rfl, rfl, rfl, rfl, rfl, rfl⟩

/-- What is taken in two steps is taken in one. -/
theorem Took.trans {wire wire' wire'' : ScpWire} {xs ys : List UInt8} (h : wire.Took xs wire')
    (h' : wire'.Took ys wire'') : wire.Took (xs ++ ys) wire'' where
  remaining := by rw [h.remaining, h'.remaining, List.append_assoc]
  ends := h'.ends.trans h.ends
  endOfInput := h'.endOfInput.trans h.endOfInput
  incompleteControl := h'.incompleteControl.trans h.incompleteControl
  sent := h'.sent.trans h.sent
  sendFails := h'.sendFails.trans h.sendFails

/-- The first byte of the stream is read over messages without data. -/
theorem readByteFrom_cons (wire : ScpWire) {events : List WireEvent} {byte : UInt8}
    {rest : List UInt8} (h : streamBytes events = byte :: rest) :
    ∃ events' buffered,
      readByteFrom wire events = (.ok byte, { wire with events := events', buffered }) ∧
      buffered ++ streamBytes events' = rest ∧ endsInput events' = endsInput events := by
  induction events with
  | nil => cases h
  | cons event events ih =>
      cases event with
      | eof | close | elapsed => cases h
      | other => exact ih h
      | data bytes =>
          cases bytes with
          | nil => exact ih h
          | cons b bytes =>
              rcases List.cons.inj h with ⟨rfl, hrest⟩
              exact ⟨events, bytes, rfl, hrest, rfl⟩

/-- While there is a byte, `readByte` takes it. -/
theorem readByte_cons {wire : ScpWire} {byte : UInt8} {rest : List UInt8}
    (h : wire.remaining = byte :: rest) :
    ∃ wire', wire.readByte = (.ok byte, wire') ∧ wire.Took [byte] wire' ∧
      wire'.remaining = rest := by
  cases hbuffered : wire.buffered with
  | cons b bytes =>
      simp only [remaining, hbuffered, List.cons_append, List.cons.injEq] at h
      rcases h with ⟨rfl, hrest⟩
      refine ⟨{ wire with buffered := bytes }, by simp [readByte, hbuffered], ?_, hrest⟩
      exact ⟨by simp [remaining, hbuffered], rfl, rfl, rfl, rfl, rfl⟩
  | nil =>
      simp only [remaining, hbuffered, List.nil_append] at h
      rcases readByteFrom_cons wire h with ⟨events', buffered, hread, hrest, hends⟩
      refine ⟨{ wire with events := events', buffered }, ?_, ?_, hrest⟩
      · simp only [readByte, hbuffered, hread]
      · exact ⟨by simp [remaining, hbuffered, h, hrest], hends, rfl, rfl, rfl, rfl⟩

/-- If nothing is left of the stream, a read reports its end. -/
theorem readByteFrom_nil (wire : ScpWire) {events : List WireEvent}
    (h : streamBytes events = []) (hends : endsInput events = true) :
    ∃ events', readByteFrom wire events =
      (.error {}, { wire with events := events', endOfInput := true }) := by
  induction events with
  | nil => cases hends
  | cons event events ih =>
      cases event with
      | eof | close => exact ⟨events, rfl⟩
      | elapsed => cases hends
      | other => exact ih h hends
      | data bytes =>
          cases bytes with
          | nil => exact ih h hends
          | cons b bytes => cases h

/-- At the end of the stream `readByte` fails and notes the end of input. -/
theorem readByte_nil {wire : ScpWire} (h : wire.remaining = [])
    (hends : endsInput wire.events = true) :
    ∃ events',
      wire.readByte = (.error {}, { wire with events := events', endOfInput := true }) := by
  rcases List.append_eq_nil_iff.mp h with ⟨hbuffered, hstream⟩
  rcases readByteFrom_nil wire hstream hends with ⟨events', hread⟩
  refine ⟨events', ?_⟩
  simp only [readByte, hbuffered, hread]

/-! ## Lines -/

/-- A line that ends within its room. -/
theorem readLineFrom_line {wire : ScpWire} (start : List UInt8) {line rest : List UInt8}
    {room : Nat} (h : wire.remaining = line ++ 10 :: rest) (hline : 10 ∉ line)
    (hroom : line.length < room) :
    ∃ wire', wire.readLineFrom start room =
        (.ok (start ++ line ++ [10]), { wire' with incompleteControl := false }) ∧
      wire.Took (line ++ [10]) wire' ∧ wire'.remaining = rest := by
  induction line generalizing wire start room with
  | nil =>
      rcases room with _ | room
      · simp at hroom
      · rcases readByte_cons h with ⟨wire', hread, htook, hrest⟩
        exact ⟨wire', by simp [readLineFrom, hread], htook, hrest⟩
  | cons b line ih =>
      -- each byte takes one of the room, and none of them ends the line
      rcases room with _ | room
      · simp at hroom
      · have hb : b ≠ 10 := by
          rintro rfl
          simp at hline
        rcases readByte_cons h with ⟨wire₁, hread, htook, hrest₁⟩
        rcases ih (start ++ [b]) hrest₁ (fun hmem => hline (List.mem_cons_of_mem b hmem))
          (by simpa using hroom) with ⟨wire', hline', htook', hrest⟩
        refine ⟨wire', ?_, htook.trans htook', hrest⟩
        simp [readLineFrom, hread, hb, hline']

/-- A line that does not end within its room. -/
theorem readLineFrom_full {wire : ScpWire} (start : List UInt8) {line rest : List UInt8}
    {room : Nat} (h : wire.remaining = line ++ rest) (hline : 10 ∉ line)
    (hroom : line.length = room) :
    ∃ wire', wire.readLineFrom start room = (.error {}, wire') ∧ wire.Took line wire' := by
  induction line generalizing wire start room with
  | nil =>
      obtain rfl : room = 0 := hroom.symm
      exact ⟨wire, rfl, Took.refl wire⟩
  | cons b line ih =>
      obtain rfl : room = line.length + 1 := hroom.symm
      have hb : b ≠ 10 := by
        rintro rfl
        simp at hline
      rcases readByte_cons h with ⟨wire₁, hread, htook, hrest₁⟩
      rcases ih (start ++ [b]) hrest₁ (fun hmem => hline (List.mem_cons_of_mem b hmem))
        rfl with ⟨wire', hline', htook'⟩
      exact ⟨wire', by simp [readLineFrom, hread, hb, hline'], htook.trans htook'⟩

/-- A line that the end of input cuts short. -/
theorem readLineFrom_cut {wire : ScpWire} (start : List UInt8) {line : List UInt8} {room : Nat}
    (h : wire.remaining = line) (hends : endsInput wire.events = true) (hline : 10 ∉ line)
    (hroom : line.length < room) :
    ∃ wire', wire.readLineFrom start room = (.error {}, wire') ∧ wire'.endOfInput = true ∧
      wire'.incompleteControl = !(start ++ line).isEmpty ∧ wire'.sent = wire.sent := by
  induction line generalizing wire start room with
  | nil =>
      -- the end of input: bytes of a line without its end are an incomplete control record
      rcases room with _ | room
      · simp at hroom
      · rcases readByte_nil h hends with ⟨events', hread⟩
        refine ⟨{ wire with events := events', endOfInput := true,
                            incompleteControl := !start.isEmpty }, ?_, rfl, by simp, rfl⟩
        simp only [readLineFrom, hread]
  | cons b line ih =>
      rcases room with _ | room
      · simp at hroom
      · have hb : b ≠ 10 := by
          rintro rfl
          simp at hline
        rcases readByte_cons h with ⟨wire₁, hread, htook, hrest₁⟩
        rcases ih (start ++ [b]) hrest₁ (htook.ends.trans hends)
          (fun hmem => hline (List.mem_cons_of_mem b hmem)) (by simpa using hroom) with
          ⟨wire', hline', hend, hincomplete, hsent⟩
        refine ⟨wire', by simp [readLineFrom, hread, hb, hline'], hend, ?_, hsent.trans htook.sent⟩
        simpa using hincomplete

/-! ## Contents -/

/-- As many bytes are read as were asked for. -/
theorem readExact_ok {wire : ScpWire} (start : List UInt8) {data rest : List UInt8}
    (h : wire.remaining = data ++ rest) :
    ∃ wire', wire.readExact start data.length = (.ok (start ++ data), wire') ∧
      wire.Took data wire' ∧ wire'.remaining = rest := by
  induction data generalizing wire start with
  | nil => exact ⟨wire, by simp [readExact], Took.refl wire, h⟩
  | cons b data ih =>
      rcases readByte_cons h with ⟨wire₁, hread, htook, hrest₁⟩
      rcases ih (start ++ [b]) hrest₁ with ⟨wire', hdata, htook', hrest⟩
      exact ⟨wire', by simp [readExact, hread, hdata], htook.trans htook', hrest⟩

/-- If there are fewer, the read fails. -/
theorem readExact_cut {wire : ScpWire} (start : List UInt8) {length : Nat}
    (hends : endsInput wire.events = true) (hlength : wire.remaining.length < length) :
    ∃ wire', wire.readExact start length = (.error {}, wire') ∧ wire'.sent = wire.sent := by
  induction length generalizing wire start with
  | zero => simp at hlength
  | succ length ih =>
      cases hrem : wire.remaining with
      | nil =>
          rcases readByte_nil hrem hends with ⟨events', hread⟩
          refine ⟨{ wire with events := events', endOfInput := true }, ?_, rfl⟩
          simp only [readExact, hread]
      | cons b rest =>
          rcases readByte_cons hrem with ⟨wire₁, hread, htook, hrest₁⟩
          rcases ih (start ++ [b]) (htook.ends.trans hends)
            (by rw [hrest₁]; simpa [hrem] using hlength) with ⟨wire', hdata, hsent⟩
          exact ⟨wire', by simp [readExact, hread, hdata], hsent.trans htook.sent⟩

/-! ## What was read -/

/-- A byte that was read was the first one of the stream. -/
theorem readByteFrom_ok {wire wire' : ScpWire} {events : List WireEvent} {byte : UInt8}
    (h : readByteFrom wire events = (.ok byte, wire')) :
    byte :: (wire'.buffered ++ streamBytes wire'.events) = streamBytes events ∧
      wire'.sent = wire.sent := by
  induction events with
  | nil => cases h
  | cons event events ih =>
      cases event with
      | eof | close | elapsed => cases h
      | other => exact ih h
      | data bytes =>
          cases bytes with
          | nil => exact ih h
          | cons b bytes =>
              cases h
              exact ⟨rfl, rfl⟩

/-- A byte that was read was the next one. -/
theorem readByte_ok {wire wire' : ScpWire} {byte : UInt8} (h : wire.readByte = (.ok byte, wire')) :
    wire.remaining = byte :: wire'.remaining ∧ wire'.sent = wire.sent := by
  simp only [readByte] at h
  split at h
  · rename_i b bytes hbuffered
    cases h
    exact ⟨by simp [remaining, hbuffered], rfl⟩
  · rename_i hbuffered
    rcases readByteFrom_ok h with ⟨hbytes, hsent⟩
    exact ⟨by simp [remaining, hbuffered, ← hbytes], hsent⟩

/-- Reading sends nothing. -/
theorem readByteFrom_sent (wire : ScpWire) (events : List WireEvent) :
    (readByteFrom wire events).2.sent = wire.sent := by
  induction events with
  | nil => rfl
  | cons event events ih =>
      cases event with
      | eof | close | elapsed => rfl
      | other => exact ih
      | data bytes =>
          cases bytes with
          | nil => exact ih
          | cons => rfl

/-- Reading sends nothing. -/
theorem readByte_sent (wire : ScpWire) : wire.readByte.2.sent = wire.sent := by
  unfold readByte
  split
  · rfl
  · exact readByteFrom_sent wire wire.events

/-- A line that was read was the next one, and had room. -/
theorem readLineFrom_ok {wire wire' : ScpWire} {start line : List UInt8} {room : Nat}
    (h : wire.readLineFrom start room = (.ok line, wire')) :
    ∃ bytes, line = start ++ bytes ++ [10] ∧ wire.remaining = bytes ++ 10 :: wire'.remaining ∧
      10 ∉ bytes ∧ bytes.length < room := by
  -- by induction on the room, of which each byte but the newline takes one
  induction room generalizing wire start with
  | zero => cases h
  | succ room ih =>
      rw [readLineFrom] at h
      split at h
      · cases h
      · rename_i byte wire₁ hread
        have hbyte := (readByte_ok hread).1
        split at h
        · rename_i hnewline
          subst hnewline
          cases h
          exact ⟨[], by simp, hbyte, by simp, by simp⟩
        · rename_i hother
          rcases ih h with ⟨bytes, hline, hrest, hplain, hroom⟩
          refine ⟨byte :: bytes, by simp [hline], by simp [hbyte, hrest], ?_, by simpa using hroom⟩
          simp only [List.mem_cons, not_or]
          exact ⟨Ne.symm hother, hplain⟩

/-- A content that was read was the next one. -/
theorem readExact_eq_ok {wire wire' : ScpWire} {start data : List UInt8} {length : Nat}
    (h : wire.readExact start length = (.ok data, wire')) :
    ∃ bytes, data = start ++ bytes ∧ bytes.length = length ∧
      wire.remaining = bytes ++ wire'.remaining := by
  induction length generalizing wire start with
  | zero =>
      cases h
      exact ⟨[], by simp, rfl, rfl⟩
  | succ length ih =>
      rw [readExact] at h
      split at h
      · cases h
      · rename_i byte wire₁ hread
        have hbyte := (readByte_ok hread).1
        rcases ih h with ⟨bytes, hdata, hlength, hrest⟩
        exact ⟨byte :: bytes, by simp [hdata], by simp [hlength], by simp [hbyte, hrest]⟩

end ScpWire

/-! ## Rules -/

section Rules

variable {σ α : Type} {P E : σ → Prop}

/-- A refusal changes nothing. -/
theorem reject_triple {Q : α → σ → Prop} (hE : ∀ s, P s → E s) : Triple P reject Q E :=
  Triple.throw hE

/-- Behind a check, its condition holds. -/
theorem require_triple {condition : Prop} [Decidable condition] (hE : ∀ s, P s → E s) :
    Triple P (require condition) (fun _ s => condition ∧ P s) E := by
  intro s hs
  by_cases h : condition
  · rw [require, if_pos h]
    exact ⟨h, hs⟩
  · rw [require, if_neg h]
    exact hE s hs

theorem require_pos {condition : Prop} [Decidable condition] (h : condition) :
    Triple P (require condition) (fun _ s => P s) E := by
  intro s hs
  rw [require, if_pos h]
  exact hs

theorem require_neg {condition : Prop} [Decidable condition] {Q : Unit → σ → Prop}
    (h : ¬condition) (hE : ∀ s, P s → E s) : Triple P (require condition) Q E := by
  intro s hs
  rw [require, if_neg h]
  exact hE s hs

theorem orReject_some {value : Option α} {a : α} (h : value = some a) :
    Triple P (orReject value) (fun b s => b = a ∧ P s) E := by
  subst h
  intro s hs
  exact ⟨rfl, hs⟩

theorem orReject_none {value : Option α} {Q : α → σ → Prop} (h : value = none)
    (hE : ∀ s, P s → E s) : Triple P (orReject value) Q E := by
  subst h
  exact hE

/-- Behind a value that has to be there, it is there. -/
theorem orReject_triple {value : Option α} (hE : ∀ s, P s → E s) :
    Triple P (orReject value) (fun a s => value = some a ∧ P s) E := by
  intro s hs
  cases value with
  | some a => exact ⟨rfl, hs⟩
  | none => exact hE s hs

theorem require_lasts {condition : Prop} [Decidable condition] :
    Lasts P (require condition) :=
  (require_triple fun _ hs => hs).weaken (fun _ hs => hs) fun _ _ hs => hs.2

theorem orReject_lasts {value : Option α} : Lasts P (orReject value) :=
  (orReject_triple fun _ hs => hs).weaken (fun _ hs => hs) fun _ _ hs => hs.2

end Rules

section FsRules

variable {α : Type} {P E : Os ν → Prop} {Q : α → Os ν → Prop}

/-- A call that fails is a refusal. -/
theorem fsCall_triple {call : Sys ν α} (h : Triple P call Q E) : Triple P (fsCall call) Q E := by
  intro os hos
  have hcall := h os hos
  simp only [fsCall]
  cases hrun : call os with
  | ok value os' =>
      rw [hrun] at hcall
      exact hcall
  | error errno os' =>
      rw [hrun] at hcall
      exact hcall

/-- What lasts over a call lasts over one whose failure is looked at. -/
theorem fsTry_lasts {call : Sys ν α} (h : Lasts P call) : Lasts P (fsTry call) := by
  intro os hos
  have hcall := h os hos
  simp only [fsTry]
  cases hrun : call os with
  | ok value os' =>
      rw [hrun] at hcall
      exact hcall
  | error errno os' =>
      rw [hrun] at hcall
      exact hcall

/-- A triple of a program of the file system is one of the world around it. -/
theorem onFs_triple {f : FsM ν α} (h : Triple P f Q E) :
    Triple (fun w => P w.os) (onFs f) (fun a w => Q a w.os) (fun w => E w.os) := by
  intro w hw
  have hf := h w.os hw
  simp only [onFs]
  cases hrun : f w.os with
  | ok value os' =>
      rw [hrun] at hf
      exact hf
  | error error os' =>
      rw [hrun] at hf
      exact hf

/-- Work on the wire leaves the file system alone. -/
theorem onWire_triple {f : ScpWire → Except ScpProtocolError α × ScpWire}
    (hE : ∀ os, P os → E os) :
    Triple (fun w => P w.os) (onWire f) (fun _ w => P w.os) (fun w => E w.os) := by
  intro w hw
  simp only [onWire]
  rcases f w.wire with ⟨value | error, wire'⟩
  · exact hE _ hw
  · exact hw

/-- A program of the wire leaves the file system alone. -/
theorem tryWire_triple {f : ScpWire → Except ScpProtocolError α × ScpWire} :
    Triple (fun w => P w.os) (tryWire f) (fun _ w => P w.os) (fun w => E w.os) := by
  intro w hw
  exact hw

/-- An acknowledgement leaves the file system alone, sent or not. -/
theorem sendAck_triple (hE : ∀ os, P os → E os) :
    Triple (fun w => P w.os) sendAck (fun _ w => P w.os) (fun w => E w.os) :=
  onWire_triple hE

theorem expectAck_triple (hE : ∀ os, P os → E os) :
    Triple (fun w => P w.os) expectAck (fun _ w => P w.os) (fun w => E w.os) := by
  refine (onWire_triple hE).bind fun byte => ?_
  exact (require_triple fun w hw => hE w.os hw).weaken (fun _ h => h) fun _ _ h => h.2

/-- What a call that only looks sees, where its error is looked at: a fault is never a
missing name. -/
theorem fsTry_observe_held {root : Loc ν} {fault : Nat → Option Fault} {fs : Fs ν}
    {look : Fs ν → Except Errno α} :
    Triple (Held root fault fs) (fsTry (observe look))
      (fun result os =>
        (result = look fs ∨ ∃ fault : Fault, result = .error fault.errno) ∧
          Held root fault fs os)
      (Contained root) := by
  intro os hos
  rcases observe_cases look hos with ⟨os', hos', ⟨fault, hrun⟩ | hrun⟩
  · simp only [fsTry, hrun]
    exact ⟨.inr ⟨fault, rfl⟩, hos'⟩
  · cases hlook : look fs with
    | ok value =>
        simp only [fsTry, hrun, hlook]
        exact ⟨.inl trivial, hos'⟩
    | error errno =>
        simp only [fsTry, hrun, hlook]
        exact ⟨.inl trivial, hos'⟩

end FsRules

/-! ## Runs -/

/-- The world in which a run ends, well or not. -/
def finalWorld : EStateM.Result ScpProtocolError (World ν) Unit → World ν
  | .ok _ w => w
  | .error _ w => w

/-- What holds however a program ends holds of the world it leaves. -/
theorem finalWorld_of_triple {P E : World ν → Prop} {x : ScpM ν Unit}
    (h : Triple P x (fun _ w => E w) E) {w : World ν} (hw : P w) : E (finalWorld (x w)) := by
  have hrun := h w hw
  cases hx : x w with
  | ok value w' =>
      rw [hx] at hrun
      exact hrun
  | error error w' =>
      rw [hx] at hrun
      exact hrun

end Rssh.Scp
