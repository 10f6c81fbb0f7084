import Scriptlet.Terminal.Input

/-!
# Terminals

A terminal takes the lines and prompts that a script writes and gives the lines it reads. It
either captures what a user would see on a screen, as lines of text, or sends bytes to a sink.

A sink is not any writer there could be, but one of a family. It takes bytes in the order in which
they are sent, up to a bound on their number or without one. A text that goes beyond the bound is
cut off there and refused, as is every text but the empty one from then on. Flushing fails each time
or never, and changes nothing about what is taken before or after. So writers that fail for a while
and then go on, or that tell errors apart by other causes, are not meant, and what is said about
terminals is said about sinks of this family.

## Main definitions

* `Sink`, `Sink.write`, `Sink.flush` — an output for bytes that may refuse them
* `Output` — a captured screen or a sink
* `Terminal` — an output and an input
* `Terminal.writeLine`, `writePrompt`, `readLine`, `flush` — what a script can do with it
* `Terminal.lines`, `Terminal.written` — what came out of it
-/

namespace Scriptlet

/-! ## Sinks -/

/-- An output for bytes, which takes them up to a bound and fails to flush always or never. -/
structure Sink where
  /-- The bytes taken so far. -/
  written : Array UInt8 := #[]
  /-- How many bytes are taken in all; there may be no bound. -/
  limit? : Option Nat := none
  /-- Whether flushing fails. -/
  flushFails : Bool := false
deriving DecidableEq, Inhabited

namespace Sink

/-- Sends a text. Of a text that does not fit, the bytes that fit are taken. -/
def write (text : String) : EStateM IoError Sink Unit := fun sink =>
  let bytes := text.toUTF8.data
  match sink.limit? with
  | none => .ok () { sink with written := sink.written ++ bytes }
  | some limit =>
    let room := limit - sink.written.size
    let sink := { sink with written := sink.written ++ bytes.take room }
    if bytes.size ≤ room then .ok () sink else .error .closed sink

/-- Makes sure that everything sent has arrived. -/
def flush : EStateM IoError Sink Unit := fun sink =>
  if sink.flushFails then .error .flushFailed sink else .ok () sink

end Sink

/-! ## Terminals -/

/-- Where a terminal shows what is written to it. -/
inductive Output where
  /-- Finished lines of text, and the text of an unfinished one. -/
  | captured (lines : Array String) (pending : String)
  /-- Bytes that are sent on. -/
  | stream (sink : Sink)
deriving Inhabited

/-- An output and an input. -/
structure Terminal where
  /-- Where written text goes. -/
  output : Output := .captured #[] ""
  /-- Where read lines come from. -/
  input : LineSource := {}
deriving Inhabited

namespace Terminal

/-- A terminal that captures its output. -/
def captured (input : LineSource) : Terminal := ⟨.captured #[] "", input⟩

/-- A terminal that sends its output to a sink. -/
def streaming (sink : Sink) (input : LineSource) : Terminal := ⟨.stream sink, input⟩

/-- Does something with the sink of a terminal. A captured screen is left as it is. -/
def onSink (action : EStateM IoError Sink Unit) : EStateM IoError Terminal Unit := fun terminal =>
  match terminal with
  | ⟨.captured lines pending, input⟩ => .ok () ⟨.captured lines pending, input⟩
  | ⟨.stream sink, input⟩ =>
    match action sink with
    | .ok _ sink => .ok () ⟨.stream sink, input⟩
    | .error error sink => .error error ⟨.stream sink, input⟩

/-- Does something with the captured screen of a terminal. A sink is left as it is. -/
def onScreen (change : Array String → String → Array String × String) :
    EStateM IoError Terminal Unit := fun terminal =>
  match terminal with
  | ⟨.captured lines pending, input⟩ =>
    let (lines, pending) := change lines pending
    .ok () ⟨.captured lines pending, input⟩
  | ⟨.stream sink, input⟩ => .ok () ⟨.stream sink, input⟩

/-- Writes a text and a line break, which ends the unfinished line. -/
def writeLine (text : String) : EStateM IoError Terminal Unit := do
  onScreen fun lines pending => (lines.push (pending ++ text), "")
  onSink do
    Sink.write text
    Sink.write "\n"

/-- Makes sure that everything written has arrived. -/
def flush : EStateM IoError Terminal Unit := onSink Sink.flush

/-- Writes a text that leaves its line unfinished. -/
def writePrompt (text : String) : EStateM IoError Terminal Unit := do
  onScreen fun lines pending => (lines, pending ++ text)
  onSink do
    Sink.write text
    Sink.flush

/-- Reads the next line of the input, of which there is none at its end. A user who types a line
behind a prompt ends the line of the prompt, so a captured screen shows both as one. -/
def readLine : EStateM IoError Terminal (Option String) := fun terminal =>
  match LineSource.readLine terminal.input with
  | .error error input => .error error { terminal with input }
  | .ok none input => .ok none { terminal with input }
  | .ok (some line) input =>
    let echo (lines : Array String) (pending : String) : Array String × String :=
      if pending.isEmpty then (lines, pending) else (lines.push (pending ++ line), "")
    (do onScreen echo; return some line : EStateM IoError Terminal (Option String))
      { terminal with input }

/-- The lines on a captured screen, an unfinished one included. -/
def lines (terminal : Terminal) : Array String :=
  match terminal.output with
  | .captured lines pending => if pending.isEmpty then lines else lines.push pending
  | .stream _ => #[]

/-- The bytes that a sink took. -/
def written (terminal : Terminal) : Array UInt8 :=
  match terminal.output with
  | .captured _ _ => #[]
  | .stream sink => sink.written

end Terminal

end Scriptlet
