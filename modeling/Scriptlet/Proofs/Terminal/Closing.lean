import Scriptlet.Proofs.Terminal.Transcript

/-!
# Sinks that close

A sink with a bound takes bytes up to the bound and then refuses whatever is not empty; of bytes
that cross the bound it takes those that fit. Next to it stands the same sink without a bound.
Whatever is sent to both, the one with the bound has got the first bytes of what the other one got,
also after it refused something.

## Main definitions

* `Fits` — whether bytes are taken by a sink with a bound, given how many were sent before
* `Sink.closing`, `Terminal.closing` — the same with a bound
* `Sink.Sends`, `Terminal.Sends` — what sending bytes does, with a bound and without one

## Main results

* `Terminal.sends_writeLine`, `Terminal.sends_writePrompt` — writing sends the bytes of the text
* `Terminal.sends_readLine`, `Terminal.sends_flush` — reading and flushing send nothing
-/

namespace Scriptlet

/-- Whether a sink with a bound takes bytes, given how many were sent before. No bytes at all always
fit. -/
def Fits (limit sent : Nat) (bytes : List UInt8) : Prop :=
  bytes = [] ∨ sent + bytes.length ≤ limit

instance (limit sent : Nat) (bytes : List UInt8) : Decidable (Fits limit sent bytes) :=
  inferInstanceAs (Decidable (_ ∨ _))

section Fits

variable {limit sent : Nat} {bytes first second : List UInt8}

theorem fits_nil (limit sent : Nat) : Fits limit sent [] := .inl rfl

theorem fits_iff : Fits limit sent bytes ↔ bytes.length ≤ limit - sent := by
  rw [Fits, ← List.length_eq_zero_iff]
  omega

/-- Bytes that do not fit go beyond the bound. -/
theorem lt_of_not_fits (h : ¬ Fits limit sent bytes) : limit < sent + bytes.length := by
  rw [fits_iff] at h
  omega

theorem fits_append_iff :
    Fits limit sent (first ++ second) ↔
      Fits limit sent first ∧ Fits limit (sent + first.length) second := by
  simp only [fits_iff, List.length_append]
  omega

end Fits

/-! ## Sinks -/

namespace Sink

/-- The same sink with a bound, behind which nothing was taken. -/
def closing (limit : Nat) (sink : Sink) : Sink :=
  { sink with written := sink.written.take limit, limit? := some limit }

/-- The sink after it took bytes. -/
def after (bytes : List UInt8) (sink : Sink) : Sink :=
  { sink with written := sink.written ++ bytes.toArray }

variable {sink : Sink} {limit : Nat} {bytes first second : List UInt8}

@[simp] theorem size_after (bytes : List UInt8) (sink : Sink) :
    (sink.after bytes).written.size = sink.written.size + bytes.length := by
  simp [after]

@[simp] theorem after_nil (sink : Sink) : sink.after [] = sink := by simp [after]

theorem after_append (first second : List UInt8) (sink : Sink) :
    sink.after (first ++ second) = (sink.after first).after second := by
  simp [after]

/-- The room that is left by a sink that may have been sent too much. -/
theorem room_closing (limit : Nat) (sink : Sink) :
    limit - (sink.closing limit).written.size = limit - sink.written.size := by
  simp only [closing, Array.take_eq_extract, Array.size_extract]
  omega

/-- What fits of some bytes is taken, be it all of them or not. -/
theorem closing_after (bytes : List UInt8) (limit : Nat) (sink : Sink) :
    (sink.after bytes).closing limit =
      { sink.closing limit with
        written := (sink.closing limit).written ++
          bytes.toArray.take (limit - (sink.closing limit).written.size) } := by
  rw [room_closing]
  simp [closing, after, Array.extract_append]

/-- Behind the bound nothing is taken. -/
theorem closing_after_of_le (bytes : List UInt8) (h : limit ≤ sink.written.size) :
    (sink.after bytes).closing limit = sink.closing limit := by
  rw [closing_after, room_closing, Nat.sub_eq_zero_of_le h]
  simp

/-- Something that sends bytes to every sink without a bound, and to one with a bound if they fit.
If they do not, it is refused, and those that fit are sent. -/
structure Sends (action : EStateM IoError Sink Unit) (bytes : List UInt8) : Prop where
  after {sink : Sink} : sink.limit? = none → stateAfter action sink = sink.after bytes
  fits {sink : Sink} {limit : Nat} : sink.limit? = none → Fits limit sink.written.size bytes →
    action (sink.closing limit) = onState (closing limit) (action sink)
  refused {sink : Sink} {limit : Nat} : sink.limit? = none →
    ¬ Fits limit sink.written.size bytes →
    action (sink.closing limit) = .error .closed ((sink.after bytes).closing limit)

theorem write_of_endless (h : sink.limit? = none) (text : String) :
    write text sink = .ok () (sink.after (textBytes text)) := by
  obtain ⟨written, limit?, flushFails⟩ := sink
  cases h
  rfl

theorem sends_write (text : String) : Sends (write text) (textBytes text) where
  after h := by rw [stateAfter, write_of_endless h]
  fits h hfits := by
    rw [write_of_endless h, onState, closing_after]
    refine if_pos ?_
    rw [room_closing]
    exact fits_iff.mp hfits
  refused h hfits := by
    rw [closing_after]
    refine if_neg ?_
    rw [room_closing]
    exact fun hroom => hfits (fits_iff.mpr hroom)

/-- Flushing sends nothing. -/
theorem sends_flush : Sends flush [] where
  after {sink} h := by
    rw [after_nil]
    cases hflush : sink.flushFails <;> simp [stateAfter, flush, hflush]
  fits {sink limit} h _ := by
    cases hflush : sink.flushFails <;> simp [flush, closing, onState, hflush]
  refused h hfits := absurd (fits_nil _ _) hfits

/-- Something that is sent behind a text. -/
theorem Sends.behind_write {next : EStateM IoError Sink Unit} (h : Sends next bytes)
    (text : String) : Sends (do write text; next) (textBytes text ++ bytes) where
  after {sink} hlimit := by
    have hnext : stateAfter next (sink.after (textBytes text)) = _ := h.after hlimit
    rw [after_append, ← hnext, stateAfter, stateAfter,
      bind_of_ok (write_of_endless hlimit text)]
  fits hlimit hfits := by
    obtain ⟨htext, hnext⟩ := fits_append_iff.mp hfits
    have hwrite := (sends_write text).fits hlimit htext
    rw [write_of_endless hlimit] at hwrite
    rw [bind_of_ok hwrite, bind_of_ok (write_of_endless hlimit text)]
    exact h.fits hlimit (by rwa [size_after])
  refused {sink limit} hlimit hfits := by
    rw [after_append]
    by_cases htext : Fits limit sink.written.size (textBytes text)
    · have hwrite := (sends_write text).fits hlimit htext
      rw [write_of_endless hlimit] at hwrite
      rw [bind_of_ok hwrite]
      refine h.refused hlimit fun hnext => hfits (fits_append_iff.mpr ⟨htext, ?_⟩)
      rwa [size_after] at hnext
    · -- The text alone goes beyond the bound, so nothing behind it is taken.
      have hbound : limit ≤ (sink.after (textBytes text)).written.size := by
        rw [size_after]
        exact Nat.le_of_lt (lt_of_not_fits htext)
      rw [closing_after_of_le bytes hbound]
      exact bind_of_error ((sends_write text).refused hlimit htext)

end Sink

/-! ## Terminals -/

namespace Terminal

variable {α : Type}

/-- The same terminal, with a bound if it has a sink. -/
def closing (limit : Nat) (terminal : Terminal) : Terminal :=
  match terminal with
  | ⟨.captured lines pending, input⟩ => ⟨.captured lines pending, input⟩
  | ⟨.stream sink, input⟩ => ⟨.stream (sink.closing limit), input⟩

/-- A terminal with a sink that has no bound. -/
inductive Endless : Terminal → Prop
  | stream (sink : Sink) (input : LineSource) (h : sink.limit? = none) :
      Endless ⟨.stream sink, input⟩

theorem Endless.sent_closing {terminal : Terminal} (h : terminal.Endless) (limit : Nat) :
    (terminal.closing limit).sent = terminal.sent.take limit := by
  cases h with
  | stream sink input h => simp [closing, sent, written, Sink.closing]

/-- Something that sends bytes to every terminal without a bound, and to one with a bound if they
fit. If they do not, it is refused, and those that fit are sent. -/
structure Sends (action : EStateM IoError Terminal α) (bytes : List UInt8) : Prop where
  endless {terminal : Terminal} : terminal.Endless → (stateAfter action terminal).Endless
  sent {terminal : Terminal} : terminal.Endless →
    (stateAfter action terminal).sent = terminal.sent ++ bytes
  fits {terminal : Terminal} {limit : Nat} : terminal.Endless →
    Fits limit terminal.sent.length bytes →
    action (terminal.closing limit) = onState (closing limit) (action terminal)
  refused {terminal : Terminal} {limit : Nat} : terminal.Endless →
    ¬ Fits limit terminal.sent.length bytes →
    action (terminal.closing limit) =
      .error .closed ((stateAfter action terminal).closing limit)

/-- Whether bytes fit or not, those that fit are sent. -/
theorem Sends.stateAfter_closing {action : EStateM IoError Terminal α} {bytes : List UInt8}
    (h : Sends action bytes) {terminal : Terminal} (hterminal : terminal.Endless) (limit : Nat) :
    stateAfter action (terminal.closing limit) = (stateAfter action terminal).closing limit := by
  by_cases hfits : Fits limit terminal.sent.length bytes
  · rw [stateAfter, stateAfter, h.fits hterminal hfits]
    cases action terminal <;> rfl
  · rw [stateAfter, h.refused hterminal hfits]

variable {sink : Sink} {input : LineSource}

theorem onSink_of_ok {send : EStateM IoError Sink Unit} {after : Sink}
    (h : send sink = .ok () after) :
    onSink send ⟨.stream sink, input⟩ = .ok () ⟨.stream after, input⟩ := by
  simp only [onSink, h]

theorem onSink_of_error {send : EStateM IoError Sink Unit} {error : IoError} {after : Sink}
    (h : send sink = .error error after) :
    onSink send ⟨.stream sink, input⟩ = .error error ⟨.stream after, input⟩ := by
  simp only [onSink, h]

theorem stateAfter_onSink (send : EStateM IoError Sink Unit) (sink : Sink) (input : LineSource) :
    stateAfter (onSink send) ⟨.stream sink, input⟩ = ⟨.stream (stateAfter send sink), input⟩ := by
  cases h : send sink with
  | ok result after => rw [stateAfter, stateAfter, onSink_of_ok h, h]
  | error error after => rw [stateAfter, stateAfter, onSink_of_error h, h]

/-- What is sent to a sink is sent to the terminal. -/
theorem sends_onSink {send : EStateM IoError Sink Unit} {bytes : List UInt8}
    (h : Sink.Sends send bytes) : Sends (onSink send) bytes where
  endless hterminal := by
    cases hterminal with
    | stream sink input hlimit =>
      rw [stateAfter_onSink, h.after hlimit]
      exact .stream _ input hlimit
  sent hterminal := by
    cases hterminal with
    | stream sink input hlimit =>
      rw [stateAfter_onSink, h.after hlimit]
      simp [sent, written, Sink.after]
  fits {_ limit} hterminal hfits := by
    cases hterminal with
    | stream sink input hlimit =>
      have hsend := h.fits hlimit hfits
      change onSink send ⟨.stream (sink.closing limit), input⟩ = _
      cases houtcome : send sink with
      | ok result after =>
        rw [houtcome] at hsend
        rw [onSink_of_ok houtcome, onSink_of_ok hsend]
        rfl
      | error error after =>
        rw [houtcome] at hsend
        rw [onSink_of_error houtcome, onSink_of_error hsend]
        rfl
  refused {_ limit} hterminal hfits := by
    cases hterminal with
    | stream sink input hlimit =>
      rw [stateAfter_onSink, h.after hlimit]
      exact onSink_of_error (h.refused hlimit hfits)

/-- Actions that do the same on terminals with a sink send the same. -/
theorem Sends.congr {action other : EStateM IoError Terminal α} {bytes : List UInt8}
    (h : Sends action bytes)
    (heq : ∀ sink input, other ⟨.stream sink, input⟩ = action ⟨.stream sink, input⟩) :
    Sends other bytes := by
  have hendless {terminal : Terminal} (hterminal : terminal.Endless) :
      other terminal = action terminal := by
    cases hterminal with
    | stream sink input _ => exact heq sink input
  have hclosing {terminal : Terminal} (hterminal : terminal.Endless) (limit : Nat) :
      other (terminal.closing limit) = action (terminal.closing limit) := by
    cases hterminal with
    | stream sink input _ => exact heq (sink.closing limit) input
  have hafter {terminal : Terminal} (hterminal : terminal.Endless) :
      stateAfter other terminal = stateAfter action terminal := by
    rw [stateAfter, stateAfter, hendless hterminal]
  refine ⟨fun hterminal => ?_, fun hterminal => ?_, fun hterminal hfits => ?_,
    fun hterminal hfits => ?_⟩
  · rw [hafter hterminal]
    exact h.endless hterminal
  · rw [hafter hterminal]
    exact h.sent hterminal
  · rw [hclosing hterminal, hendless hterminal]
    exact h.fits hterminal hfits
  · rw [hclosing hterminal, hafter hterminal]
    exact h.refused hterminal hfits

/-- A line is sent with its line break. -/
theorem sends_writeLine (text : String) : Sends (writeLine text) (textBytes (text ++ "\n")) := by
  rw [textBytes_append]
  exact (sends_onSink ((Sink.sends_write "\n").behind_write text)).congr fun _ _ => rfl

/-- A prompt is sent as it is. -/
theorem sends_writePrompt (text : String) : Sends (writePrompt text) (textBytes text) := by
  rw [← List.append_nil (textBytes text)]
  exact (sends_onSink (Sink.sends_flush.behind_write text)).congr fun _ _ => rfl

theorem sends_flush : Sends flush [] := sends_onSink Sink.sends_flush

/-- Reading gives the same on every sink and leaves the sink as it is. -/
theorem readLine_stream_cases (input : LineSource) :
    ∃ rest, (∃ line?, ∀ sink, readLine ⟨.stream sink, input⟩ = .ok line? ⟨.stream sink, rest⟩) ∨
      ∃ error, ∀ sink, readLine ⟨.stream sink, input⟩ = .error error ⟨.stream sink, rest⟩ := by
  cases hread : LineSource.readLine input with
  | error error rest => exact ⟨rest, .inr ⟨error, fun _ => readLine_of_error hread⟩⟩
  | ok line? rest =>
    refine ⟨rest, .inl ⟨line?, fun sink => ?_⟩⟩
    cases line? with
    | none => exact readLine_of_none hread
    | some line => exact readLine_stream hread sink

/-- Reading sends nothing. -/
theorem sends_readLine : Sends readLine [] := by
  have hafter (sink : Sink) (input : LineSource) :
      ∃ rest, stateAfter readLine ⟨.stream sink, input⟩ = ⟨.stream sink, rest⟩ := by
    obtain ⟨rest, ⟨line?, hread⟩ | ⟨error, hread⟩⟩ := readLine_stream_cases input
    · exact ⟨rest, by rw [stateAfter, hread]⟩
    · exact ⟨rest, by rw [stateAfter, hread]⟩
  refine ⟨fun hterminal => ?_, fun hterminal => ?_, fun {_ limit} hterminal _ => ?_,
    fun _ hfits => absurd (fits_nil _ _) hfits⟩
  · cases hterminal with
    | stream sink input hlimit =>
      obtain ⟨rest, hrest⟩ := hafter sink input
      rw [hrest]
      exact .stream sink rest hlimit
  · cases hterminal with
    | stream sink input hlimit =>
      obtain ⟨rest, hrest⟩ := hafter sink input
      rw [hrest]
      exact (List.append_nil _).symm
  · cases hterminal with
    | stream sink input hlimit =>
      obtain ⟨rest, ⟨line?, hread⟩ | ⟨error, hread⟩⟩ := readLine_stream_cases input
      · rw [hread]
        exact hread (sink.closing limit)
      · rw [hread]
        exact hread (sink.closing limit)

end Terminal

end Scriptlet
