import Scriptlet.Proofs.Terminal.Reliable

/-!
# A captured screen shows the transcript of a console

Whoever sits at a console sees the bytes that a script sends, and between them the lines that are
typed in answer to a prompt. A captured screen is to show just that. So the same requests are made
of a captured screen and of a sink that takes everything, on the same input. Both give the same
answers, and the text on the screen is made of the bytes that each request sends and, behind those
of a read that gives a line, of that line if a prompt was left unfinished before it.

Whether a prompt is unfinished is told by the requests and their answers alone: prompts add up until
a line is written or read.

## Main definitions

* `Terminal.Request`, `Terminal.Answer` — what can be asked of a terminal, and what it answers
* `Terminal.afterAll`, `Terminal.answers` — requests that are made one after the other
* `Terminal.text`, `Terminal.pending` — what a captured screen shows, and its unfinished line
* `Terminal.Moment`, `Terminal.moments` — what is sent and what is typed at each request
* `Terminal.Counterparts` — a captured screen and a sink on the same input

## Main results

* `Terminal.Counterparts.keeps` — one request
* `Terminal.Counterparts.answers_eq`, `Terminal.Counterparts.shown_afterAll` — all requests
-/

namespace Scriptlet

namespace Terminal

/-! ## Requests -/

/-- What can be asked of a terminal. -/
inductive Request where
  | writeLine (text : String)
  | writePrompt (text : String)
  | readLine
  | flush
deriving DecidableEq

/-- What a terminal answers: the line that was read, if there was one, or why it failed. -/
abbrev Answer := Except IoError (Option String)

namespace Request

/-- What a terminal does on a request. Only reading gives something. -/
def action : Request → EStateM IoError Terminal (Option String)
  | writeLine text => do Terminal.writeLine text; return none
  | writePrompt text => do Terminal.writePrompt text; return none
  | readLine => Terminal.readLine
  | flush => do Terminal.flush; return none

/-- The terminal after a request. -/
def after (request : Request) (terminal : Terminal) : Terminal :=
  stateAfter request.action terminal

/-- The answer to a request. -/
def answer (request : Request) (terminal : Terminal) : Answer :=
  match request.action terminal with
  | .ok line? _ => .ok line?
  | .error error _ => .error error

theorem of_ok {request : Request} {terminal after : Terminal} {line? : Option String}
    (h : request.action terminal = .ok line? after) :
    request.answer terminal = .ok line? ∧ request.after terminal = after := by
  simp [answer, Request.after, stateAfter, h]

theorem of_error {request : Request} {terminal after : Terminal} {error : IoError}
    (h : request.action terminal = .error error after) :
    request.answer terminal = .error error ∧ request.after terminal = after := by
  simp [answer, Request.after, stateAfter, h]

/-- The line that prompts have begun and that is not finished after a request, given the one before
it and the answer. -/
def unfinished (prompt : String) : Request → Answer → String
  | writeLine _, _ => ""
  | writePrompt text, _ => prompt ++ text
  | readLine, .ok (some _) => ""
  | readLine, _ => prompt
  | flush, _ => prompt

/-- What is typed on a request behind an unfinished prompt. -/
def typed (prompt : String) : Request → Answer → String
  | readLine, .ok (some line) => if prompt.isEmpty then "" else line ++ "\n"
  | _, _ => ""

end Request

/-- The terminal after requests were made, whatever the answers. -/
def afterAll (requests : List Request) (terminal : Terminal) : Terminal :=
  requests.foldl (fun terminal request => request.after terminal) terminal

/-- The answers to requests that are made one after the other. -/
def answers : List Request → Terminal → List Answer
  | [], _ => []
  | request :: rest, terminal => request.answer terminal :: answers rest (request.after terminal)

theorem afterAll_concat (requests : List Request) (request : Request) (terminal : Terminal) :
    afterAll (requests ++ [request]) terminal = request.after (afterAll requests terminal) := by
  simp [afterAll]

/-! ## Transcripts -/

/-- The text on a captured screen: each finished line with a line break, and the unfinished one. -/
def text (terminal : Terminal) : String :=
  match terminal.output with
  | .captured lines pending => String.join (lines.toList.map (· ++ "\n")) ++ pending
  | .stream _ => ""

/-- The unfinished line on a captured screen. -/
def pending (terminal : Terminal) : String :=
  match terminal.output with
  | .captured _ pending => pending
  | .stream _ => ""

/-- What comes to be seen on a console at a request. -/
structure Moment where
  /-- The bytes that are sent. -/
  sent : List UInt8
  /-- The bytes of the line that is typed behind a prompt. -/
  typed : List UInt8

/-- The bytes that are sent, and behind them what is typed. -/
def Moment.shown (moment : Moment) : List UInt8 := moment.sent ++ moment.typed

/-- What comes to be seen at each request, given the prompt that is unfinished before them. -/
def moments : List Request → Terminal → String → List Moment
  | [], _, _ => []
  | request :: rest, terminal, prompt =>
    let after := request.after terminal
    let answer := request.answer terminal
    ⟨after.sent.drop terminal.sent.length, textBytes (request.typed prompt answer)⟩ ::
      moments rest after (request.unfinished prompt answer)

/-! ## Reading -/

section Reading

variable {input rest : LineSource} {output : Output}

theorem readLine_of_error {error : IoError} (h : LineSource.readLine input = .error error rest) :
    readLine ⟨output, input⟩ = .error error ⟨output, rest⟩ := by
  simp [readLine, h]

theorem readLine_of_none (h : LineSource.readLine input = .ok none rest) :
    readLine ⟨output, input⟩ = .ok none ⟨output, rest⟩ := by
  simp [readLine, h]

theorem readLine_stream {line : String} (h : LineSource.readLine input = .ok (some line) rest)
    (sink : Sink) : readLine ⟨.stream sink, input⟩ = .ok (some line) ⟨.stream sink, rest⟩ := by
  simp only [readLine, h]
  rfl

theorem readLine_captured_of_empty {line : String}
    (h : LineSource.readLine input = .ok (some line) rest) (lines : Array String) :
    readLine ⟨.captured lines "", input⟩ = .ok (some line) ⟨.captured lines "", rest⟩ := by
  simp only [readLine, h]
  rfl

/-- A line that is typed behind a prompt finishes its line. -/
theorem readLine_captured_of_ne_empty {line : String}
    (h : LineSource.readLine input = .ok (some line) rest) (lines : Array String)
    {pending : String} (hpending : pending.isEmpty = false) :
    readLine ⟨.captured lines pending, input⟩ =
      .ok (some line) ⟨.captured (lines.push (pending ++ line)) "", rest⟩ := by
  have hecho : onScreen (fun lines pending =>
      if pending.isEmpty then (lines, pending) else (lines.push (pending ++ line), ""))
        ⟨.captured lines pending, rest⟩ =
      .ok () ⟨.captured (lines.push (pending ++ line)) "", rest⟩ := by
    simp [onScreen, hpending]
  simp only [readLine, h]
  exact bind_of_ok hecho

end Reading

/-! ## A screen and a sink -/

/-- A captured screen and a sink that takes everything, on the same input. -/
inductive Counterparts : Terminal → Terminal → Prop
  | intro (lines : Array String) (pending : String) (written : Array UInt8) (input : LineSource) :
      Counterparts ⟨.captured lines pending, input⟩ ⟨.stream ⟨written, none, false⟩, input⟩

theorem Counterparts.input_eq {screen stream : Terminal} (h : Counterparts screen stream) :
    screen.input = stream.input := by
  obtain ⟨lines, pending, written, input⟩ := h
  rfl

/-- What a request does to a captured screen and to a sink. -/
structure Request.Keeps (request : Request) (screen stream : Terminal) : Prop where
  answer : request.answer screen = request.answer stream
  after : Counterparts (request.after screen) (request.after stream)
  pending : (request.after screen).pending =
    request.unfinished screen.pending (request.answer stream)
  /-- Some bytes are sent, and the screen shows them and what is typed. -/
  shown : ∃ bytes, (request.after stream).sent = stream.sent ++ bytes ∧
    textBytes (request.after screen).text = textBytes screen.text ++
      (bytes ++ textBytes (request.typed screen.pending (request.answer stream)))

theorem text_push (lines : Array String) (line pending : String) (input : LineSource) :
    text ⟨.captured (lines.push line) pending, input⟩ =
      text ⟨.captured lines "", input⟩ ++ line ++ "\n" ++ pending := by
  simp [text, String.join_append, String.append_assoc]

theorem text_pending (lines : Array String) (pending : String) (input : LineSource) :
    text ⟨.captured lines pending, input⟩ = text ⟨.captured lines "", input⟩ ++ pending := by
  simp [text]

theorem textBytes_empty : textBytes "" = [] := rfl

/-- A request on which nothing is written and nothing typed. -/
theorem Request.Keeps.of_silent {request : Request} {lines : Array String} {pending : String}
    {written : Array UInt8} {input rest : LineSource} {answer : Answer}
    (hscreen : request.answer ⟨.captured lines pending, input⟩ = answer ∧
      request.after ⟨.captured lines pending, input⟩ = ⟨.captured lines pending, rest⟩)
    (hstream : request.answer ⟨.stream ⟨written, none, false⟩, input⟩ = answer ∧
      request.after ⟨.stream ⟨written, none, false⟩, input⟩ =
        ⟨.stream ⟨written, none, false⟩, rest⟩)
    (hpending : request.unfinished pending answer = pending)
    (htyped : request.typed pending answer = "") :
    request.Keeps ⟨.captured lines pending, input⟩ ⟨.stream ⟨written, none, false⟩, input⟩ where
  answer := hscreen.1.trans hstream.1.symm
  after := by
    rw [hscreen.2, hstream.2]
    exact .intro lines pending written rest
  pending := by
    rw [hscreen.2, hstream.1]
    exact hpending.symm
  shown := by
    rw [hscreen.2, hstream.1, hstream.2]
    change ∃ bytes, _ ∧ _ = _ ++ (bytes ++ textBytes (request.typed pending answer))
    rw [htyped]
    exact ⟨[], (List.append_nil _).symm, (List.append_nil _).symm⟩

/-- **One request.** -/
theorem Counterparts.keeps {screen stream : Terminal} (h : Counterparts screen stream)
    (request : Request) : request.Keeps screen stream := by
  obtain ⟨lines, pending, written, input⟩ := h
  cases request with
  | writeLine text =>
    refine ⟨rfl, .intro _ _ _ _, rfl, textBytes (text ++ "\n"), ?_, ?_⟩
    · change (written ++ text.toUTF8.data ++ "\n".toUTF8.data).toList = written.toList ++ _
      simp [textBytes]
    · change textBytes (Terminal.text ⟨.captured (lines.push (pending ++ text)) "", input⟩) =
        textBytes (Terminal.text ⟨.captured lines pending, input⟩) ++
          (textBytes (text ++ "\n") ++ textBytes "")
      rw [text_push, text_pending lines pending]
      simp [textBytes_append, textBytes_empty]
  | writePrompt text =>
    refine ⟨rfl, .intro _ _ _ _, rfl, textBytes text, ?_, ?_⟩
    · change (written ++ text.toUTF8.data).toList = written.toList ++ _
      simp [textBytes]
    · change textBytes (Terminal.text ⟨.captured lines (pending ++ text), input⟩) =
        textBytes (Terminal.text ⟨.captured lines pending, input⟩) ++
          (textBytes text ++ textBytes "")
      rw [text_pending, text_pending lines pending]
      simp [textBytes_append, textBytes_empty]
  | flush => exact .of_silent ⟨rfl, rfl⟩ ⟨rfl, rfl⟩ rfl rfl
  | readLine =>
    -- What is read is decided by the input, which is the same.
    cases hread : LineSource.readLine input with
    | error error rest =>
      exact .of_silent (Request.of_error (readLine_of_error hread))
        (Request.of_error (readLine_of_error hread)) rfl rfl
    | ok line? rest =>
      cases line? with
      | none =>
        exact .of_silent (Request.of_ok (readLine_of_none hread))
          (Request.of_ok (readLine_of_none hread)) rfl rfl
      | some line =>
        have hstream := @Request.of_ok .readLine _ _ _
          (readLine_stream hread ⟨written, none, false⟩)
        cases hpending : pending.isEmpty with
        | true =>
          obtain rfl := String.isEmpty_iff.mp hpending
          have hscreen := @Request.of_ok .readLine _ _ _ (readLine_captured_of_empty hread lines)
          exact .of_silent hscreen hstream rfl rfl
        | false =>
          have hscreen := @Request.of_ok .readLine _ _ _
            (readLine_captured_of_ne_empty hread lines hpending)
          refine ⟨hscreen.1.trans hstream.1.symm, ?_, ?_, [], ?_, ?_⟩
          · rw [hscreen.2, hstream.2]
            exact .intro _ _ _ _
          · rw [hscreen.2, hstream.1]
            rfl
          · rw [hstream.2]
            exact (List.append_nil _).symm
          · rw [hscreen.2, hstream.1, text_push]
            change _ = textBytes (Terminal.text ⟨.captured lines pending, rest⟩) ++
              ([] ++ textBytes (Request.readLine.typed pending (.ok (some line))))
            rw [text_pending lines pending, Request.typed, hpending]
            simp [textBytes_append]

/-! ## All requests -/

section All

variable {screen stream : Terminal}

theorem Counterparts.afterAll (h : Counterparts screen stream) (requests : List Request) :
    Counterparts (afterAll requests screen) (afterAll requests stream) := by
  induction requests generalizing screen stream with
  | nil => exact h
  | cons request rest ih => exact ih (h.keeps request).after

/-- **Both give the same answers.** -/
theorem Counterparts.answers_eq (h : Counterparts screen stream) (requests : List Request) :
    answers requests screen = answers requests stream := by
  induction requests generalizing screen stream with
  | nil => rfl
  | cons request rest ih =>
    have hfirst := h.keeps request
    rw [answers, answers, hfirst.answer, ih hfirst.after]

/-- **The sink gets what is sent, and the screen shows it with what is typed.** The induction
carries along that the unfinished line of the screen is the unfinished prompt. -/
theorem Counterparts.shown_afterAll (h : Counterparts screen stream) (requests : List Request) :
    (Terminal.afterAll requests stream).sent =
        stream.sent ++ (moments requests stream screen.pending).flatMap Moment.sent ∧
      textBytes (Terminal.afterAll requests screen).text =
        textBytes screen.text ++ (moments requests stream screen.pending).flatMap Moment.shown := by
  induction requests generalizing screen stream with
  | nil => exact ⟨(List.append_nil _).symm, (List.append_nil _).symm⟩
  | cons request rest ih =>
    have hfirst := h.keeps request
    obtain ⟨bytes, hsent, htext⟩ := hfirst.shown
    obtain ⟨hrestSent, hrestText⟩ := ih hfirst.after
    rw [hfirst.pending] at hrestSent hrestText
    have hbytes : (request.after stream).sent.drop stream.sent.length = bytes := by
      rw [hsent, List.drop_left]
    simp only [moments, hbytes, List.flatMap_cons, Moment.shown]
    constructor
    · rw [← List.append_assoc, ← hsent]
      exact hrestSent
    · rw [← List.append_assoc, ← htext]
      exact hrestText

end All

end Terminal

end Scriptlet
