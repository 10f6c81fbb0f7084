import Scriptlet.Proofs.Outcome
import Scriptlet.Terminal.Basic

/-!
# Terminals that take everything

A captured screen takes whatever is written to it, and so does a sink without a bound that can be
flushed. On such a terminal no write fails, and on a sink the bytes of each text arrive behind those
that were sent before.

## Main definitions

* `textBytes` — the bytes that stand for a text
* `Terminal.streams`, `Terminal.sent` — whether bytes are sent to a sink, and those that were
* `Terminal.reliable` — nothing that is written fails
* `Terminal.Takes` — a terminal after it took some bytes

## Main results

* `Terminal.writeLine_takes`, `Terminal.writePrompt_takes`, `Terminal.flush_reliable` — what is
  written arrives
-/

namespace Scriptlet

/-- The bytes that stand for a text. -/
def textBytes (text : String) : List UInt8 := text.toUTF8.data.toList

theorem textBytes_append (first second : String) :
    textBytes (first ++ second) = textBytes first ++ textBytes second := by
  simp [textBytes, String.toByteArray_append]

namespace Terminal

/-- Whether what is written is sent to a sink. -/
def streams (terminal : Terminal) : Bool :=
  match terminal.output with
  | .captured _ _ => false
  | .stream _ => true

/-- The bytes that a sink took, from the first to the last. -/
def sent (terminal : Terminal) : List UInt8 := terminal.written.toList

/-- Whether nothing that is written to a terminal ever fails. -/
def reliable (terminal : Terminal) : Bool :=
  match terminal.output with
  | .captured _ _ => true
  | .stream sink => sink.limit?.isNone && !sink.flushFails

/-- The second terminal is the first after it took some bytes. What a captured screen shows is not
looked at. -/
structure Takes (bytes : List UInt8) (before after : Terminal) : Prop where
  input : after.input = before.input
  streams : after.streams = before.streams
  reliable : after.reliable = before.reliable
  sent : before.streams = true → after.sent = before.sent ++ bytes

variable {terminal : Terminal}

/-- A sink that nothing fails on has no bound and can be flushed. -/
theorem exists_of_reliable_stream {sink : Sink} {input : LineSource}
    (h : reliable ⟨.stream sink, input⟩ = true) : ∃ written, sink = ⟨written, none, false⟩ := by
  obtain ⟨written, limit?, flushFails⟩ := sink
  obtain ⟨hlimit, hflush⟩ := Bool.and_eq_true_iff.mp h
  cases limit? with
  | some limit => cases hlimit
  | none =>
    cases flushFails with
    | true => cases hflush
    | false => exact ⟨written, rfl⟩

/-- A line that is written arrives. -/
theorem writeLine_takes (text : String) (h : terminal.reliable = true) :
    ∃ after, writeLine text terminal = .ok () after ∧
      Takes (textBytes (text ++ "\n")) terminal after := by
  obtain ⟨output, input⟩ := terminal
  cases output with
  | captured lines pending => exact ⟨_, rfl, rfl, rfl, rfl, nofun⟩
  | stream sink =>
    obtain ⟨written, rfl⟩ := exists_of_reliable_stream h
    refine ⟨_, rfl, rfl, rfl, rfl, fun _ => ?_⟩
    rw [textBytes_append]
    simp [sent, Terminal.written, textBytes]

/-- A prompt that is written arrives. -/
theorem writePrompt_takes (text : String) (h : terminal.reliable = true) :
    ∃ after, writePrompt text terminal = .ok () after ∧ Takes (textBytes text) terminal after := by
  obtain ⟨output, input⟩ := terminal
  cases output with
  | captured lines pending => exact ⟨_, rfl, rfl, rfl, rfl, nofun⟩
  | stream sink =>
    obtain ⟨written, rfl⟩ := exists_of_reliable_stream h
    exact ⟨_, rfl, rfl, rfl, rfl, fun _ => by simp [sent, Terminal.written, textBytes]⟩

/-- Nothing is left to arrive. -/
theorem flush_reliable (h : terminal.reliable = true) : flush terminal = .ok () terminal := by
  obtain ⟨output, input⟩ := terminal
  cases output with
  | captured lines pending => rfl
  | stream sink =>
    obtain ⟨written, rfl⟩ := exists_of_reliable_stream h
    rfl

end Terminal

end Scriptlet
