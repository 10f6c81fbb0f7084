import Scriptlet.Proofs.Session.Echo
import Scriptlet.Proofs.Session.Upkeep
import Scriptlet.Proofs.Terminal.Transcript

/-!
# Scripts on a console and on a captured screen

A captured screen and a sink that takes everything give the same answers to the same requests. So a
script that is run on either of them makes the same requests of both and comes to the same end, and
when it has ended the screen shows the transcript of the console.

## Main definitions

* `Terminal.requested` — terminals of which the same requests were made

## Main results

* `Terminal.requested_lawful` — whatever a script does makes the same requests of both
* `Action.interpret_requested` — scripts come to the same end
* `captured_is_transcript` — a captured screen shows the transcript of a console
-/

namespace Scriptlet

open Scriptlet.Action

namespace Terminal

/-- Terminals of which the same requests were made since they were as given. -/
def requested (screen stream : Terminal) : Pairing where
  terminals terminal other :=
    ∃ requests, terminal = afterAll requests screen ∧ other = afterAll requests stream
  dumps := Eq
  excused _ := False

variable {screen stream terminal other : Terminal}

/-- One more request of both gives the same. -/
theorem requested_ends (h : Counterparts screen stream) (request : Request)
    (hpair : (requested screen stream).terminals terminal other) :
    (requested screen stream).Ends (request.action terminal) (request.action other) := by
  obtain ⟨requests, rfl, rfl⟩ := hpair
  have hanswer := ((h.afterAll requests).keeps request).answer
  have hmore : (requested screen stream).terminals (request.after (afterAll requests screen))
      (request.after (afterAll requests stream)) :=
    ⟨requests ++ [request], (afterAll_concat requests request screen).symm,
      (afterAll_concat requests request stream).symm⟩
  cases hscreen : request.action (afterAll requests screen) with
  | ok line? after =>
    obtain ⟨hline, hafter⟩ := Request.of_ok hscreen
    cases hstream : request.action (afterAll requests stream) with
    | ok line?' after' =>
      obtain ⟨hline', hafter'⟩ := Request.of_ok hstream
      obtain rfl : line? = line?' := by simpa [hline, hline'] using hanswer
      exact .ok (hafter ▸ hafter' ▸ hmore)
    | error error after' => simp [hline, (Request.of_error hstream).1] at hanswer
  | error error after =>
    obtain ⟨herror, hafter⟩ := Request.of_error hscreen
    cases hstream : request.action (afterAll requests stream) with
    | ok line?' after' => simp [herror, (Request.of_ok hstream).1] at hanswer
    | error error' after' =>
      obtain ⟨herror', hafter'⟩ := Request.of_error hstream
      obtain rfl : error = error' := by simpa [herror, herror'] using hanswer
      exact .error (hafter ▸ hafter' ▸ hmore)

/-- What holds of a request holds of the action behind it. -/
theorem ends_of_return_none {pairing : Pairing} {action : EStateM IoError Terminal Unit}
    (h : pairing.Ends ((do action; return none : EStateM IoError Terminal (Option String)) terminal)
      ((do action; return none : EStateM IoError Terminal (Option String)) other)) :
    pairing.Ends (action terminal) (action other) := by
  cases hfirst : action terminal with
  | ok result after =>
    rw [bind_of_ok hfirst] at h
    cases hsecond : action other with
    | ok result' after' =>
      rw [bind_of_ok hsecond] at h
      cases h with
      | ok hpair => exact .ok hpair
    | error error after' =>
      rw [bind_of_error hsecond] at h
      cases h
  | error error after =>
    rw [bind_of_error hfirst] at h
    cases hsecond : action other with
    | ok result' after' =>
      rw [bind_of_ok hsecond] at h
      cases h with
      | excused hexcused => exact .excused hexcused
    | error error' after' =>
      rw [bind_of_error hsecond] at h
      cases h with
      | error hpair => exact .error hpair
      | excused hexcused => exact .excused hexcused

/-- **Whatever a script does makes the same requests of both.** -/
theorem requested_lawful (h : Counterparts screen stream) : (requested screen stream).Lawful where
  writeLine text hpair := ends_of_return_none (requested_ends h (.writeLine text) hpair)
  writeLineQuietly := by
    intro terminal other text hpair
    have hends := ends_of_return_none (requested_ends h (.writeLine text) hpair)
    rw [stateAfter, stateAfter]
    generalize writeLine text terminal = outcome, writeLine text other = outcome' at hends ⊢
    cases hends with
    | ok hafter => exact hafter
    | error hafter => exact hafter
    | excused hexcused => exact (hexcused .unknown).elim
  writePrompt text hpair := ends_of_return_none (requested_ends h (.writePrompt text) hpair)
  readLine hpair := requested_ends h .readLine hpair

end Terminal

/-- Sessions that differ in their terminals only agree in everything a script can come across, if
the same is left of the input. -/
theorem Pairing.mirrors {pairing : Pairing} {before before' after after' : Session}
    (h : pairing.likeness.Later () before before' () after after')
    (hscope : before.scope = before'.scope)
    (hinput : after.terminal.input = after'.terminal.input) : after.Mirrors after' where
  store := h.sessions.store
  globals := h.sessions.globals
  scope := by rw [h.scope, h.scope', hscope]
  lastValue := h.sessions.lastValue
  callDepth := h.sessions.callDepth
  functions := h.sessions.functions
  maxCallDepth := h.sessions.limit
  input := hinput

namespace Action

variable {screen stream : Terminal}

/-- **A script comes to the same end on a captured screen and on a sink**, and makes the same
requests of them. -/
theorem interpret_requested (h : Terminal.Counterparts screen stream) (steps : Nat)
    (statements : List Stmt) (session : Session) :
    SameOutcome (interpret steps statements (session.on screen))
        (interpret steps statements (session.on stream)) ∧
      ∃ requests,
        (stateAfter (interpret steps statements) (session.on screen)).terminal =
            Terminal.afterAll requests screen ∧
          (stateAfter (interpret steps statements) (session.on stream)).terminal =
            Terminal.afterAll requests stream := by
  have hlaw := (Terminal.requested_lawful h).likeness
  have hflush (w : Unit) : (Terminal.requested screen stream).likeness.Alike False w
      Likeness.anything (onTerminal .unknown Terminal.flush) (onTerminal .unknown Terminal.flush) :=
    (Pairing.onTerminal_alike (fun hpair =>
      Terminal.ends_of_return_none (Terminal.requested_ends h .flush hpair)) .unknown).imp
        fun _ => trivial
  have hpair : (Terminal.requested screen stream).Sessions (session.on screen)
      (session.on stream) :=
    ⟨⟨[], rfl, rfl⟩, rfl, rfl, rfl, rfl, rfl, rfl, rfl⟩
  have houtcomes : (Terminal.requested screen stream).likeness.Outcomes ()
      (session.on screen) (session.on stream) Likeness.anything
      (interpret steps statements (session.on screen))
      (interpret steps statements (session.on stream)) :=
    hlaw.interpret (.inl rfl) (fun hsessions => hsessions.dumps) hflush
      (List.forall₂_same.mpr fun _ _ => rfl) hpair fun _ => rfl
  -- Both terminals have come from counterparts, so that they have the same input.
  have hmirrors {after after' : Session} (hlater : (Terminal.requested screen stream).likeness.Later
      () (session.on screen) (session.on stream) () after after') :
      after.Mirrors after' := by
    obtain ⟨requests, hscreen, hstream⟩ := hlater.sessions.terminals
    refine Pairing.mirrors hlater rfl ?_
    rw [hscreen, hstream]
    exact (h.afterAll requests).input_eq
  rw [stateAfter, stateAfter]
  generalize interpret steps statements (session.on screen) = outcome,
    interpret steps statements (session.on stream) = outcome' at houtcomes ⊢
  cases houtcomes with
  | ok hlater => exact ⟨.ok (hmirrors hlater), hlater.sessions.terminals⟩
  | error hlater hstops =>
    cases hstops
    exact ⟨.error (hmirrors hlater), hlater.sessions.terminals⟩
  | excused hexcused => exact hexcused.elim

end Action

/-- Runs of a script that answer the same and leave sessions behind that agree in everything a
script can come across. -/
structure Session.SameEnd (result result' : Session.RunResult) : Prop where
  answer : Session.RunResult.answer result = Session.RunResult.answer result'
  after : (Session.RunResult.after result).Mirrors (Session.RunResult.after result')

theorem Session.SameEnd.finish {outcome outcome' : EStateM.Result Stop Session Unit}
    (h : SameOutcome outcome outcome') (noted : List ParseError) :
    SameEnd (RunResult.finish noted outcome) (RunResult.finish noted outcome') := by
  cases h with
  | ok hafter => exact ⟨rfl, hafter⟩
  | error hafter => exact ⟨rfl, hafter⟩

/-- **A captured screen shows the transcript of a console.** Let the same requests be made of a
captured screen and of a sink that takes everything, on the same input. They give the same answers,
in particular the same lines. The sink gets the bytes that are sent at each request; and the text on
the screen, each finished line with a line break behind it and then the unfinished one, grows by the
same bytes and, at each read that gives a line while a prompt is unfinished, by that line and a line
break. So a script, whether given as statements or as text, comes to the same end on both, with the
same scopes and last value, and makes the same requests of both. -/
theorem captured_is_transcript (lines : Array String) (pending : String) (written : Array UInt8)
    (input : LineSource) :
    let screen : Terminal := ⟨.captured lines pending, input⟩
    let stream : Terminal := ⟨.stream ⟨written, none, false⟩, input⟩
    (∀ requests,
      let seen := Terminal.moments requests stream pending
      Terminal.answers requests screen = Terminal.answers requests stream ∧
        (Terminal.afterAll requests stream).sent =
          stream.sent ++ seen.flatMap Terminal.Moment.sent ∧
        textBytes (Terminal.afterAll requests screen).text =
          textBytes screen.text ++ seen.flatMap Terminal.Moment.shown) ∧
    ∀ (steps : Nat) (session : Session),
      (∀ statements,
        SameOutcome (interpret steps statements (session.on screen))
            (interpret steps statements (session.on stream)) ∧
          ∃ requests,
            (stateAfter (interpret steps statements)
              (session.on screen)).terminal = Terminal.afterAll requests screen ∧
            (stateAfter (interpret steps statements)
              (session.on stream)).terminal = Terminal.afterAll requests stream) ∧
      ∀ source, Session.SameEnd (Session.run steps source (session.on screen))
        (Session.run steps source (session.on stream)) := by
  intro screen stream
  have h : Terminal.Counterparts screen stream := .intro lines pending written input
  refine ⟨fun requests => ⟨h.answers_eq requests, h.shown_afterAll requests⟩,
    fun steps session => ⟨fun statements => interpret_requested h steps statements session, ?_⟩⟩
  intro source
  rcases Session.run_cases steps source with ⟨-, error, hrun⟩ | ⟨statements, noted, -, hrun⟩
  · rw [hrun, hrun]
    exact ⟨rfl, rfl, rfl, rfl, rfl, rfl, rfl, rfl, rfl⟩
  · rw [hrun, hrun]
    exact .finish (interpret_requested h steps statements session).1 noted

end Scriptlet
