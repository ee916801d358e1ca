import Rssh.Server.Shell

/-!
# How the input of a shell is cut into messages

The same bytes may arrive on a shell in one message or in many. The handler compares the limit with
what it holds and the whole message, before it takes a line out.

* `Shell.outcomes_of_short` and `Shell.outcomes_of_long` are the streams for which the cuts do not
  matter: those within the limit, and those whose input goes over it in any case and is not finished
  again.
* `cuts_agree_iff` says that there are no others.
-/

namespace Rssh.Fixture

open Posix

variable {commands : List Char → Option CommandResponse}

namespace Shell

/-- The shell after a sequence of messages. -/
def after (commands : List Char → Option CommandResponse) (shell : Shell)
    (messages : List (List UInt8)) : Shell :=
  messages.foldl (fun shell data => (shell.feed commands data).shell) shell

theorem outcomes_append (shell : Shell) (messages more : List (List UInt8)) :
    shell.outcomes commands (messages ++ more) =
      shell.outcomes commands messages ++
        (shell.after commands messages).outcomes commands more := by
  induction messages generalizing shell with
  | nil => rfl
  | cons message messages ih =>
      rw [List.cons_append, outcomes, ih, outcomes, List.append_assoc]
      rfl

theorem events_append (shell : Shell) (messages more : List (List UInt8)) :
    shell.events commands (messages ++ more) =
      shell.events commands messages ++ (shell.after commands messages).events commands more := by
  induction messages generalizing shell with
  | nil => rfl
  | cons message messages ih =>
      rw [List.cons_append, events, ih, events, List.append_assoc]
      rfl

/-- An event comes with an outcome. -/
theorem events_le_outcomes (shell : Shell) (messages : List (List UInt8)) :
    (shell.events commands messages).length ≤ (shell.outcomes commands messages).length := by
  induction messages generalizing shell with
  | nil => exact Nat.le_refl 0
  | cons message messages ih =>
      -- a message with an event has an outcome, too
      have hstep : (shell.feed commands message).event.toList.length ≤
          (shell.feed commands message).outcome.toList.length := by
        cases shell with
        | closed => exact Nat.le_refl 0
        | live buffer =>
            rcases Nat.lt_or_ge maxShellCommand (buffer.length + message.length) with hlong | hshort
            · rw [feed_overLimit hlong]
              exact Nat.zero_le 1
            · cases hline : firstLine (buffer ++ message) with
              | none =>
                  rw [feed_noLine hshort hline]
                  exact Nat.le_refl 0
              | some found =>
                  rw [feed_line hshort hline]
                  exact Nat.le_refl 1
      have hrest := ih (shell.feed commands message).shell
      rw [events, outcomes, List.length_append, List.length_append]
      omega

/-- Behind the only outcome there is nothing. -/
theorem eq_of_outcomes_le_one {shell : Shell} {messages more : List (List UInt8)}
    (h : (shell.outcomes commands (messages ++ more)).length ≤ 1)
    (hsome : shell.outcomes commands messages ≠ []) :
    shell.outcomes commands (messages ++ more) = shell.outcomes commands messages ∧
      shell.events commands (messages ++ more) = shell.events commands messages := by
  have hpos := List.length_pos_of_ne_nil hsome
  have hle := @events_le_outcomes commands (shell.after commands messages) more
  rw [outcomes_append, List.length_append] at h
  rw [outcomes_append, events_append]
  have hrest : (shell.after commands messages).outcomes commands more = [] :=
    List.length_eq_zero_iff.mp (by omega)
  have hevents : (shell.after commands messages).events commands more = [] :=
    List.length_eq_zero_iff.mp (by omega)
  rw [hrest, hevents, List.append_nil, List.append_nil]
  exact ⟨rfl, rfl⟩

/-! ## Streams within the limit -/

theorem firstLine_append {buffer line rest : List UInt8} (h : firstLine buffer = some (line, rest))
    (more : List UInt8) : firstLine (buffer ++ more) = some (line, rest ++ more) := by
  simp only [firstLine, Option.map_eq_some_iff, Prod.mk.injEq] at h ⊢
  rcases h with ⟨newline, hfound, hline, hrest⟩
  have hlt : newline + 1 ≤ buffer.length := (List.findIdx?_eq_some_iff_getElem.mp hfound).1
  refine ⟨newline, ?_, ?_, ?_⟩
  · rw [List.findIdx?_append, hfound]
    rfl
  · rw [List.take_append_of_le_length hlt, hline]
  · rw [List.drop_append_of_le_length hlt, hrest]

/-- What the first line of a stream within the limit finishes its shell with. -/
def lineOutcomes (commands : List Char → Option CommandResponse) (stream : List UInt8) :
    List CommandOutcome :=
  (firstLine stream).toList.map fun found => configuredCommand (commandOf found.1) commands

/-- The event of that line. -/
def lineEvents (commands : List Char → Option CommandResponse) (stream : List UInt8) :
    List SshEvent :=
  (firstLine stream).toList.map fun found =>
    .exec (commandOf found.1) (configuredCommand (commandOf found.1) commands).accepted

theorem events_closed (messages : List (List UInt8)) : events commands .closed messages = [] := by
  induction messages with
  | nil => rfl
  | cons message messages ih => exact ih

/-- Within the limit only the first line counts. -/
theorem outcomes_of_short {buffer : List UInt8} (hclean : 0x0A ∉ buffer) (cut : List (List UInt8))
    (hshort : buffer.length + cut.flatten.length ≤ maxShellCommand) :
    outcomes commands (.live buffer) cut = lineOutcomes commands (buffer ++ cut.flatten) ∧
      events commands (.live buffer) cut = lineEvents commands (buffer ++ cut.flatten) := by
  -- along the messages: the buffer holds what has come so far, and it has no line yet
  induction cut generalizing buffer with
  | nil =>
      have hnone : firstLine buffer = none := firstLine_eq_none_iff.mpr hclean
      simp [outcomes, events, lineOutcomes, lineEvents, hnone]
  | cons message messages ih =>
      rw [List.flatten_cons, List.length_append] at hshort
      rw [outcomes, events, List.flatten_cons, ← List.append_assoc]
      cases hline : firstLine (buffer ++ message) with
      | none =>
          rw [feed_noLine (by omega) hline]
          have hrest := ih (firstLine_eq_none_iff.mp hline) (by rw [List.length_append]; omega)
          exact hrest
      | some found =>
          rw [feed_line (by omega) hline, outcomes_closed, events_closed]
          have hfirst := firstLine_append hline messages.flatten
          rw [lineOutcomes, lineEvents, hfirst]
          exact ⟨rfl, rfl⟩

/-! ## Streams over the limit -/

/-- A stream that has no line within the limit and whose rest, behind the byte that goes over it,
fits again. -/
def OverOnce (stream : List UInt8) : Prop :=
  0x0A ∉ stream.take maxShellCommand ∧ Fits 0 [stream.drop (maxShellCommand + 1)]

/-- However such a stream is cut, it is rejected once. -/
theorem outcomes_of_long {stream buffer : List UInt8} (hover : OverOnce stream)
    (hlong : maxShellCommand < stream.length) (hheld : buffer.length ≤ maxShellCommand)
    (cut : List (List UInt8)) (hcut : buffer ++ cut.flatten = stream) :
    outcomes commands (.live buffer) cut = [.rejected] ∧
      events commands (.live buffer) cut = [] := by
  induction cut generalizing buffer with
  | nil =>
      rw [← hcut, List.flatten_nil, List.append_nil] at hlong
      omega
  | cons message messages ih =>
      rw [List.flatten_cons, ← List.append_assoc] at hcut
      rw [outcomes, events]
      rcases Nat.lt_or_ge maxShellCommand (buffer.length + message.length) with hlimit | hshort
      · -- the rest is a part of what is behind the byte that goes over the limit
        have hrest : Fits 0 messages := by
          have hdrop : stream.drop (maxShellCommand + 1) =
              (buffer ++ message).drop (maxShellCommand + 1) ++ messages.flatten := by
            rw [← hcut]
            exact List.drop_append_of_le_length (by rw [List.length_append]; omega)
          -- what follows the message over the limit is part of the rest, which fits
          have hfits := hover.2
          rw [hdrop, Fits, List.flatten_singleton, List.length_append] at hfits
          exact ⟨by omega, fun hmem => hfits.2 (List.mem_append_right _ hmem)⟩
        have hnone : outcomes commands (.live []) messages = [] :=
          (outcomes_eq_nil_iff List.not_mem_nil (Nat.zero_le _) messages).mpr hrest
        have hle := @events_le_outcomes commands (.live []) messages
        rw [hnone] at hle
        have hevents := List.length_eq_zero_iff.mp (Nat.le_zero.mp hle)
        rw [feed_overLimit hlimit, hnone, hevents]
        exact ⟨rfl, rfl⟩
      · -- up to the limit the stream has no newline
        have hclean : firstLine (buffer ++ message) = none := by
          apply firstLine_eq_none_iff.mpr
          intro hmem
          apply hover.1
          rw [← hcut, List.take_append, List.take_of_length_le (by rw [List.length_append]; omega)]
          exact List.mem_append_left _ hmem
        rw [feed_noLine hshort hclean]
        exact ih (by rw [List.length_append]; omega) hcut

end Shell

/-! ## The handler -/

section Handler

variable {channel : ChannelId} {s₀ s : Handler}

/-- The messages of one channel: the shell gets those up to an error, and an error comes only with
an outcome. -/
theorem serve_cut {shell : Shell} (h : Shows channel s shell) (cut : List (List UInt8)) :
    ∃ served rest, cut = served ++ rest ∧
      (rest ≠ [] → shell.outcomes commands served ≠ [] ∧ ∃ n, s.fault n = true) ∧
      (stateOf (serveData commands (cut.map (channel, ·)) s)).finishesOf channel =
        s.finishesOf channel ++ shell.outcomes commands served ∧
      (stateOf (serveData commands (cut.map (channel, ·)) s)).events =
        s.events ++ shell.events commands served := by
  induction cut generalizing s shell with
  | nil =>
      exact ⟨[], [], rfl, fun h => absurd rfl h, (List.append_nil _).symm, (List.append_nil _).symm⟩
  | cons message messages ih =>
      rw [List.map_cons, serveData]
      rcases @data_answers commands _ _ _ h message with
        ⟨s₁, hdata, hshows, hreports⟩ | ⟨s₁, n, hdata, hn, houtcome, hreports⟩
      · rw [bind_of_ok hdata]
        rcases ih hshows with ⟨served, rest, hcut, hrest, hfinished, hevents⟩
        refine ⟨message :: served, rest, by rw [hcut]; rfl, ?_, ?_, ?_⟩
        · intro hne
          -- the session has failed in a later message
          rcases hrest hne with ⟨hsome, n, hn⟩
          refine ⟨?_, n, hreports.fault ▸ hn⟩
          rw [Shell.outcomes]
          exact List.append_ne_nil_of_right_ne_nil _ hsome
        · rw [hfinished, hreports.finished, Shell.outcomes, List.append_assoc]
        · rw [hevents, hreports.events, Shell.events, List.append_assoc]
      · rw [bind_of_error hdata]
        refine ⟨[message], messages, rfl, ?_, ?_, ?_⟩
        · intro _
          refine ⟨?_, n, hn⟩
          rw [Shell.outcomes, Shell.outcomes, List.append_nil]
          simpa using houtcome
        · rw [Shell.outcomes, Shell.outcomes, List.append_nil]
          exact hreports.finished
        · rw [Shell.events, Shell.events, List.append_nil]
          exact hreports.events

/-- Without an error the shell gets the whole stream. -/
theorem serve_undisturbed {shell : Shell} (h : Shows channel s shell)
    (hfault : ∀ n, s.fault n = false) (cut : List (List UInt8)) :
    (stateOf (serveData commands (cut.map (channel, ·)) s)).finishesOf channel =
        s.finishesOf channel ++ shell.outcomes commands cut ∧
      (stateOf (serveData commands (cut.map (channel, ·)) s)).events =
        s.events ++ shell.events commands cut := by
  rcases @serve_cut commands _ _ _ h cut with ⟨served, rest, hcut, hrest, hfinished, hevents⟩
  have hnone : rest = [] := by
    by_contra hne
    rcases (hrest hne).2 with ⟨n, hn⟩
    rw [hfault n] at hn
    cases hn
  rw [hnone, List.append_nil] at hcut
  rw [hcut] at hfinished hevents ⊢
  exact ⟨hfinished, hevents⟩

/-- Both cuts of a stream leave the same events and the same outcomes of the channel. -/
def Agree (commands : List Char → Option CommandResponse) (channel : ChannelId) (s : Handler)
    (cut cut' : List (List UInt8)) : Prop :=
  (stateOf (serveData commands (cut.map (channel, ·)) s)).events =
      (stateOf (serveData commands (cut'.map (channel, ·)) s)).events ∧
    (stateOf (serveData commands (cut.map (channel, ·)) s)).finishesOf channel =
      (stateOf (serveData commands (cut'.map (channel, ·)) s)).finishesOf channel

/-- A stream within the limit, or one that goes over it in any case, and only once. -/
def Seamless (stream : List UInt8) : Prop :=
  stream.length ≤ maxShellCommand ∨ Shell.OverOnce stream

/-- A seamless stream does the same to a shell however it is cut. -/
theorem Seamless.outcomes {stream : List UInt8} (h : Seamless stream) :
    ∃ outcomes events, outcomes.length ≤ 1 ∧ ∀ cut : List (List UInt8), cut.flatten = stream →
      Shell.outcomes commands (.live []) cut = outcomes ∧
        Shell.events commands (.live []) cut = events := by
  rcases Nat.lt_or_ge maxShellCommand stream.length with hlong | hshort
  · have hover : Shell.OverOnce stream := h.resolve_left (Nat.not_le.mpr hlong)
    refine ⟨[.rejected], [], Nat.le_refl 1, fun cut hcut => ?_⟩
    exact Shell.outcomes_of_long hover hlong (Nat.zero_le _) cut hcut
  · refine ⟨Shell.lineOutcomes commands stream, Shell.lineEvents commands stream, ?_, ?_⟩
    · rw [Shell.lineOutcomes, List.length_map]
      cases firstLine stream with
      | none => exact Nat.zero_le 1
      | some found => exact Nat.le_refl 1
    · intro cut hcut
      have hall := @Shell.outcomes_of_short commands [] List.not_mem_nil cut
        (by rw [hcut, List.length_nil]; omega)
      rw [hcut] at hall
      exact hall

/-- A stream over the limit, in one message. -/
theorem wholeMessage_rejected {stream : List UInt8} (h : maxShellCommand < stream.length) :
    Shell.outcomes commands (.live []) [stream] = [.rejected] ∧
      Shell.events commands (.live []) [stream] = [] := by
  have hfeed : (Shell.live []).feed commands stream =
      { shell := .live [], outcome := some .rejected } :=
    Shell.feed_overLimit (by rw [List.length_nil]; omega)
  rw [Shell.outcomes, Shell.events, hfeed]
  exact ⟨rfl, rfl⟩

/-- One message and a cut in two tell the other streams apart. -/
theorem seamless_of_cuts {stream : List UInt8}
    (h : ∀ cut : List (List UInt8), cut.flatten = stream →
      Shell.outcomes commands (.live []) cut = Shell.outcomes commands (.live []) [stream] ∧
        Shell.events commands (.live []) cut = Shell.events commands (.live []) [stream]) :
    Seamless stream := by
  rcases Nat.lt_or_ge maxShellCommand stream.length with hlong | hshort
  · rcases wholeMessage_rejected hlong with ⟨houtcomes, hevents⟩
    refine .inr ⟨?_, ?_⟩
    · -- a line within the limit is answered if the message ends there
      intro hmem
      have hcut := (h [stream.take maxShellCommand, stream.drop maxShellCommand] (by simp)).2
      rcases @Shell.live_cases commands [] List.not_mem_nil (stream.take maxShellCommand) with
        ⟨hover, _⟩ | ⟨_, hnone, _⟩ | ⟨_, _, line, rest, _, hfeed⟩
      · rw [List.length_nil, List.length_take] at hover
        omega
      · exact hnone hmem
      · rw [hevents, Shell.events, hfeed] at hcut
        cases hcut
    · -- the rest behind the limit is answered if it is a message of its own
      have hcut := (h [stream.take (maxShellCommand + 1), stream.drop (maxShellCommand + 1)]
        (by simp)).1
      have hfirst : (Shell.live []).feed commands (stream.take (maxShellCommand + 1)) =
          { shell := .live [], outcome := some .rejected } :=
        Shell.feed_overLimit (by rw [List.length_nil, List.length_take]; omega)
      rw [houtcomes, Shell.outcomes, hfirst] at hcut
      have hrest : Shell.outcomes commands (.live []) [stream.drop (maxShellCommand + 1)] = [] :=
        (List.cons.inj hcut).2
      exact (Shell.outcomes_eq_nil_iff List.not_mem_nil (Nat.zero_le _) _).mp hrest
  · exact .inl hshort

/-- For every stream that is sent to a shell that was accepted: however the session fails, all cuts
of it into messages leave the same events and the same outcomes, exactly when it is within the
limit, or has no line within the limit and, behind the byte that goes over it, neither a line nor
more than the limit. -/
theorem cuts_agree_iff (commands : List Char → Option CommandResponse)
    (hnew : s₀.New channel) (hshell : shellRequest channel s₀ = .ok () s) (stream : List UInt8) :
    (∀ fault (cut cut' : List (List UInt8)), cut.flatten = stream → cut'.flatten = stream →
      Agree commands channel { s with fault } cut cut') ↔ Seamless stream := by
  have hshows := (shellRequest_shows hnew hshell).1
  constructor
  · intro hagree
    have hserve := @serve_undisturbed commands channel { s with fault := fun _ => false } (.live [])
      hshows fun _ => rfl
    apply @seamless_of_cuts commands
    intro cut hcut
    have hsame := hagree (fun _ => false) cut [stream] hcut (List.append_nil _)
    rcases hserve cut with ⟨hfinished, hevents⟩
    rcases hserve [stream] with ⟨hfinished', hevents'⟩
    refine ⟨?_, ?_⟩
    · exact List.append_cancel_left (hfinished.symm.trans (hsame.2.trans hfinished'))
    · exact List.append_cancel_left (hevents.symm.trans (hsame.1.trans hevents'))
  · intro hseamless fault cut cut' hcut hcut'
    rcases @Seamless.outcomes commands stream hseamless with ⟨outcomes, events, hone, hall⟩
    have hserve : ∀ cut : List (List UInt8), cut.flatten = stream →
        (stateOf (serveData commands (cut.map (channel, ·)) { s with fault })).finishesOf channel =
            s.finishesOf channel ++ outcomes ∧
        (stateOf (serveData commands (cut.map (channel, ·)) { s with fault })).events =
            s.events ++ events := by
      intro cut hcut
      rcases @serve_cut commands channel { s with fault } (.live []) hshows cut
        with ⟨served, rest, hparts, hrest, hfinished, hevents⟩
      rcases hall cut hcut with ⟨houtcomes, hrecords⟩
      have hserved : Shell.outcomes commands (.live []) served = outcomes ∧
          Shell.events commands (.live []) served = events := by
        -- what an error cuts off comes behind the one outcome, and would add nothing
        by_cases hne : rest = []
        · rw [hne, List.append_nil] at hparts
          rw [← hparts]
          exact ⟨houtcomes, hrecords⟩
        · rw [hparts] at houtcomes hrecords
          have hsame := Shell.eq_of_outcomes_le_one (houtcomes ▸ hone) (hrest hne).1
          exact ⟨hsame.1.symm.trans houtcomes, hsame.2.symm.trans hrecords⟩
      rw [hfinished, hevents, hserved.1, hserved.2]
      exact ⟨rfl, rfl⟩
    rcases hserve cut hcut with ⟨hfinished, hevents⟩
    rcases hserve cut' hcut' with ⟨hfinished', hevents'⟩
    exact ⟨hevents.trans hevents'.symm, hfinished.trans hfinished'.symm⟩

end Handler

/-- A short line, in one message or in two. -/
theorem cuts_agree_short_line :
    Agree (fun _ => none) 0 openShell [[0x61, 0x0A]] [[0x61], [0x0A]] := by
  have hseamless : Seamless [0x61, 0x0A] := .inl (by decide)
  exact (cuts_agree_iff _ openShell_opened.1 openShell_opened.2 _).mpr hseamless openShell.fault
    [[0x61, 0x0A]] [[0x61], [0x0A]] rfl rfl

/-- A short line with more behind it than the limit: in one message it is rejected unseen. -/
theorem long_message_hides_its_line :
    [0x61 :: 0x0A :: List.replicate 4096 (0x61 : UInt8)].flatten =
        [[0x61, 0x0A], List.replicate 4096 0x61].flatten ∧
      ¬ Agree (fun _ => none) 0 openShell [0x61 :: 0x0A :: List.replicate 4096 0x61]
        [[0x61, 0x0A], List.replicate 4096 0x61] := by
  refine ⟨by simp only [List.flatten_cons, List.flatten_nil, List.append_nil, List.cons_append,
    List.nil_append], fun hagree => ?_⟩
  have hserve : ∀ cut : List (List UInt8),
      (stateOf (serveData (fun _ => none) (cut.map (0, ·)) openShell)).events =
        openShell.events ++ Shell.events (fun _ => none) (.live []) cut :=
    fun cut => (serve_undisturbed (shellRequest_shows openShell_opened.1 openShell_opened.2).1
      (fun _ => rfl) cut).2
  have hevents := hagree.1
  rw [hserve, hserve] at hevents
  have hsame := List.append_cancel_left hevents
  have hlong : maxShellCommand < (0x61 :: 0x0A :: List.replicate 4096 (0x61 : UInt8)).length := by
    rw [List.length_cons, List.length_cons, List.length_replicate]
    decide
  rw [(wholeMessage_rejected hlong).2, Shell.events] at hsame
  -- alone the line runs its command
  have hfeed : ((Shell.live []).feed (fun _ => none) [0x61, 0x0A]).event ≠ none := by decide
  cases hevent : ((Shell.live []).feed (fun _ => none) [0x61, 0x0A]).event with
  | none => exact hfeed hevent
  | some event =>
      rw [hevent] at hsame
      cases hsame

end Rssh.Fixture
