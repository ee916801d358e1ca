import Rssh.Channel.Output

/-!
# Sequences of reads

A caller reads from a `RusshChannelReader` again and again, with buffers of any size, and a
read may end by cancellation or by the inactivity deadline instead of a message.

* `Takes` is what one call does: which messages it takes off the read half, and where
  their payload goes.
* `reads_account` is the result about all sequences of calls.
-/

namespace Rssh

open ChannelMsg RusshChannelReader

/-- The length of the caller's buffer. -/
def ReadCall.capacity : ReadCall → Nat
  | .read capacity _ => capacity
  | .readCancellable capacity _ => capacity

/-- The calls one after the other, with what each returned. -/
def RusshChannelReader.readAll (r : RusshChannelReader) : List ReadCall →
    List (Except SshSessionError (Option (List UInt8))) × RusshChannelReader
  | [] => ([], r)
  | call :: calls =>
      let (out, r') := r.readCall call
      let (outs, last) := r'.readAll calls
      (out :: outs, last)

/-- The bytes a call put in the caller's buffer. -/
def returnedBytes : Except SshSessionError (Option (List UInt8)) → List UInt8
  | .ok (some bytes) => bytes
  | .ok none => []
  | .error _ => []

/-- The call ended by cancellation or by the inactivity deadline. -/
def Interrupted : Except SshSessionError (Option (List UInt8)) → Prop
  | .ok (some _) => False
  | .ok none => True
  | .error _ => True

/-! ## One call -/

/-- A call that returned `out` took `taken` off the read half: their payload goes behind the
queued bytes, from the front of which the caller's buffer is filled. An interrupted call took
no payload and left the queue as it was. -/
structure Takes (r : RusshChannelReader) (messages taken : List ChannelMsg)
    (out : Except SshSessionError (Option (List UInt8))) (r' : RusshChannelReader) : Prop where
  split : messages = taken ++ r'.readHalf
  result : r'.result = resultAfter r.result taken
  bytes : r.pendingRead ++ payload taken = returnedBytes out ++ r'.pendingRead
  interrupted : Interrupted out → payload taken = [] ∧ r'.pendingRead = r.pendingRead

/-- No message changes no result. -/
@[simp] theorem resultAfter_nil (result : SshSessionResult) : resultAfter result [] = result := by
  simp [resultAfter, lastResult]

/-- A call that takes no message. -/
theorem takes_nil {r r' : RusshChannelReader} {messages : List ChannelMsg}
    {out : Except SshSessionError (Option (List UInt8))} (hsplit : messages = r'.readHalf)
    (hresult : r'.result = r.result)
    (hbytes : r.pendingRead = returnedBytes out ++ r'.pendingRead) :
    Takes r messages [] out r' where
  split := hsplit
  result := by rw [hresult, resultAfter_nil]
  bytes := by simpa [payload] using hbytes
  interrupted h := by
    refine ⟨rfl, ?_⟩
    cases out with
    | error => exact hbytes.symm
    | ok bytes =>
        cases bytes with
        | none => exact hbytes.symm
        | some => cases h

/-- A payload carries no metadata, and Close neither. -/
theorem resultAfter_singleton {m : ChannelMsg} (h : m.payload? ≠ none ∨ m = .close)
    (result : SshSessionResult) : resultAfter result [m] = result := by
  cases m <;>
    simp_all [payload?, resultAfter, lastResult, exitStatus?, exitSignal?]

/-- A message that is neither a payload nor Close goes before what the rest of the loop
takes. -/
theorem Takes.skip {r r' : RusshChannelReader} {m : ChannelMsg}
    {messages taken : List ChannelMsg} {out : Except SshSessionError (Option (List UInt8))}
    (hpayload : m.payload? = none)
    (h : Takes { r with
      result := ⟨m.exitStatus?.or r.result.exitStatus, m.exitSignal?.or r.result.exitSignal⟩ }
      messages taken out r') :
    Takes r (m :: messages) (m :: taken) out r' where
  split := by rw [h.split, List.cons_append]
  result := by rw [h.result, resultAfter_cons]
  bytes := by
    have hbytes := h.bytes
    simpa [payload, hpayload] using hbytes
  interrupted hint := by
    have hint := h.interrupted hint
    simpa [payload, hpayload] using hint

/-- One read takes some of the messages from the front. -/
theorem readLoop_takes (capacity : Nat) (messages : List ChannelMsg) (wake : Nat → Wake)
    (r : RusshChannelReader) (hpending : r.pendingRead = []) :
    ∃ taken, Takes r messages taken (readLoop capacity messages wake r).1
      (readLoop capacity messages wake r).2 := by
  induction messages generalizing wake r with
  | nil =>
      unfold readLoop
      split
      all_goals exact ⟨[], takes_nil rfl rfl rfl⟩
  | cons m rest ih =>
      unfold readLoop
      split
      · exact ⟨[], takes_nil rfl rfl rfl⟩
      · exact ⟨[], takes_nil rfl rfl rfl⟩
      · cases hm : m.payload? with
        | some data =>
            rw [applyChannelMessage_payload hm]
            refine ⟨[m], rfl, ?_, ?_, False.elim⟩
            · exact (resultAfter_singleton (.inl (by simp [hm])) r.result).symm
            · simp [payload, hm, hpending, returnedBytes, queueReadBytes, fillFromPending]
        | none =>
            -- a message without bytes is passed over, unless it is CLOSE
            by_cases hclose : m = .close
            · subst hclose
              refine ⟨[.close], rfl, ?_, ?_, False.elim⟩
              · exact (resultAfter_singleton (.inr rfl) r.result).symm
              · simp [payload, payload?, returnedBytes, applyChannelMessage]
            · rw [applyChannelMessage_skip hm hclose]
              rcases ih (fun i => wake (i + 1))
                { r with result := ⟨m.exitStatus?.or r.result.exitStatus,
                    m.exitSignal?.or r.result.exitSignal⟩ } hpending with ⟨taken, htaken⟩
              exact ⟨m :: taken, htaken.skip hm⟩

/-- A read of the reader takes pending bytes first, and else messages. -/
theorem readCancellableBlocking_takes (r : RusshChannelReader) (capacity : Nat)
    (wake : Nat → Wake) :
    ∃ taken, Takes r r.readHalf taken (r.readCancellableBlocking capacity wake).1
      (r.readCancellableBlocking capacity wake).2 := by
  unfold readCancellableBlocking
  split
  · exact ⟨[], takes_nil rfl rfl rfl⟩
  · rename_i hcap
    dsimp only [fillFromPending]
    split
    · exact ⟨[], takes_nil rfl rfl (List.take_append_drop _ _).symm⟩
    · rename_i hnone
      split
      · exact ⟨[], takes_nil rfl rfl rfl⟩
      · -- an empty fill means that nothing was queued
        have hpending : r.pendingRead = [] := by
          rw [← List.length_eq_zero_iff]
          simp only [List.length_take] at hnone
          omega
        exact readLoop_takes capacity r.readHalf wake r hpending

/-- Each of the two reads takes messages from the front. -/
theorem RusshChannelReader.readCall_takes (r : RusshChannelReader) (call : ReadCall) :
    ∃ taken, Takes r r.readHalf taken (r.readCall call).1 (r.readCall call).2 := by
  cases call with
  | readCancellable capacity wake => exact readCancellableBlocking_takes r capacity wake
  | read capacity elapsed =>
      rcases readCancellableBlocking_takes r capacity
        (fun i => if elapsed i then .elapsed else .message) with ⟨taken, htaken⟩
      refine ⟨taken, ?_⟩
      simp only [readCall, readBlocking]
      rcases hout : r.readCancellableBlocking capacity
        (fun i => if elapsed i then .elapsed else .message) with ⟨out, r'⟩
      rw [hout] at htaken
      cases out with
      | error => exact htaken
      | ok bytes =>
          cases bytes with
          | none => exact ⟨htaken.split, htaken.result, htaken.bytes, htaken.interrupted⟩
          | some => exact htaken

/-- Once the reader has finished, a call only drains the queue. -/
theorem RusshChannelReader.readCall_finished {r : RusshChannelReader} (call : ReadCall)
    (hfinished : r.finished = true) :
    r.readCall call = (.ok (some (r.pendingRead.take call.capacity)),
      { r with pendingRead := r.pendingRead.drop call.capacity }) := by
  -- a finished reader gives out what is pending and waits for nothing
  have hblocking (capacity : Nat) (wake : Nat → Wake) :
      r.readCancellableBlocking capacity wake =
        (.ok (some (r.pendingRead.take capacity)),
          { r with pendingRead := r.pendingRead.drop capacity }) := by
    unfold readCancellableBlocking
    split
    · rename_i hcap
      simp [hcap]
    · dsimp only [fillFromPending]
      split
      · rfl
      · rename_i hcap hnone
        have hpending : r.pendingRead = [] := by
          rw [← List.length_eq_zero_iff]
          simp only [List.length_take] at hnone
          omega
        rcases r with ⟨readHalf, pendingRead, result, finished, inactivityTimeout⟩
        simp_all
  cases call with
  | read capacity elapsed =>
      simp only [readCall, readBlocking, hblocking, uncancelled]
      rfl
  | readCancellable capacity wake => exact hblocking capacity wake

/-! ## All sequences of calls -/

theorem resultAfter_append (result : SshSessionResult) (xs ys : List ChannelMsg) :
    resultAfter result (xs ++ ys) = resultAfter (resultAfter result xs) ys := by
  induction xs generalizing result with
  | nil => rw [List.nil_append, resultAfter_nil]
  | cons m xs ih => rw [List.cons_append, resultAfter_cons, ih, ← resultAfter_cons]

/-- What the calls take together. -/
theorem RusshChannelReader.readAll_takes (r : RusshChannelReader) (calls : List ReadCall) :
    ∃ taken, r.readHalf = taken ++ (r.readAll calls).2.readHalf ∧
      (r.readAll calls).2.result = resultAfter r.result taken ∧
      r.pendingRead ++ payload taken =
        (r.readAll calls).1.flatMap returnedBytes ++ (r.readAll calls).2.pendingRead := by
  induction calls generalizing r with
  | nil => exact ⟨[], rfl, (resultAfter_nil r.result).symm, by simp [readAll, payload]⟩
  | cons call calls ih =>
      -- the first call takes its messages, and the others take from the rest
      rcases r.readCall_takes call with ⟨first, hfirst⟩
      rcases ih (r.readCall call).2 with ⟨rest, hsplit, hresult, hbytes⟩
      refine ⟨first ++ rest, ?_, ?_, ?_⟩
      · calc r.readHalf = first ++ (r.readCall call).2.readHalf := hfirst.split
          _ = first ++ (rest ++ ((r.readCall call).2.readAll calls).2.readHalf) := by rw [← hsplit]
          _ = first ++ rest ++ (r.readAll (call :: calls)).2.readHalf := by
              rw [List.append_assoc]
              rfl
      · rw [resultAfter_append, ← hfirst.result]
        exact hresult
      · calc r.pendingRead ++ payload (first ++ rest)
            = returnedBytes (r.readCall call).1 ++ (r.readCall call).2.pendingRead ++
                payload rest := by
              rw [payload_append, ← List.append_assoc, hfirst.bytes]
          _ = returnedBytes (r.readCall call).1 ++
                (((r.readCall call).2.readAll calls).1.flatMap returnedBytes ++
                ((r.readCall call).2.readAll calls).2.pendingRead) := by
              rw [List.append_assoc, hbytes]
          _ = (r.readAll (call :: calls)).1.flatMap returnedBytes ++
                (r.readAll (call :: calls)).2.pendingRead := by
              simp [readAll]

/-- The bytes returned so far and the queued bytes are the payload of the messages consumed so
far, and the exit metadata is the last of each kind among them. A call that is interrupted
consumes no payload and leaves the queue alone; a reader that has finished only drains its
queue. -/
theorem reads_account (messages : List ChannelMsg) (inactivityTimeout : Option Duration)
    (calls : List ReadCall) :
    ∃ consumed outs r,
      readAll { readHalf := messages, inactivityTimeout } calls = (outs, r) ∧
      messages = consumed ++ r.readHalf ∧
      outs.flatMap returnedBytes ++ r.pendingRead = payload consumed ∧
      r.result = lastResult consumed ∧
      (∀ call : ReadCall, Interrupted (r.readCall call).1 →
        (r.readCall call).2.pendingRead = r.pendingRead ∧
        ∃ skipped, r.readHalf = skipped ++ (r.readCall call).2.readHalf ∧ payload skipped = []) ∧
      (r.finished = true → ∀ call : ReadCall,
        r.readCall call = (.ok (some (r.pendingRead.take call.capacity)),
          { r with pendingRead := r.pendingRead.drop call.capacity })) := by
  rcases readAll_takes { readHalf := messages, inactivityTimeout } calls with
    ⟨consumed, hsplit, hresult, hbytes⟩
  refine ⟨consumed, _, _, rfl, hsplit, hbytes.symm, ?_, ?_, ?_⟩
  · simpa [resultAfter] using hresult
  · intro call hinterrupted
    rcases RusshChannelReader.readCall_takes _ call with ⟨skipped, hskipped⟩
    -- a read that is interrupted has taken no bytes
    obtain ⟨hpayload, hpending⟩ := hskipped.interrupted hinterrupted
    exact ⟨hpending, skipped, hskipped.split, hpayload⟩
  · intro hfinished call
    exact RusshChannelReader.readCall_finished call hfinished

end Rssh
