import Scriptlet.CommandLine
import Scriptlet.Proofs.Parser.Concatenation
import Scriptlet.Proofs.Session.Layout

/-!
# The command line runs scripts as sessions do

The command line reads tokens and statements and runs them itself, because it reports and lists
what it comes across on the way. All the same it does what a new session does with the script: it
succeeds if and only if the session does, it reports the errors that reading went on after and then
the one that the session failed with, and what it writes is what the session writes, behind the
listings.

## Main definitions

* `CommandLine.session` — the session in which a script is run
* `CommandLine.notedErrors` — the errors that reading goes on after
* `CommandLine.listing` — what is listed in front of the output of a script
* `CommandLine.errorLines` — messages as they are reported
* `CommandLine.Agrees` — what an outcome has to do with the result of a session

## Main results

* `CommandLine.run_agrees` — the command line and a session agree
-/

namespace Scriptlet

namespace CommandLine

open Session (RunResult)

/-- A new session on the standard streams. -/
def session (dump : Bool) (input : LineSource) : Session :=
  .start (.streaming {} input) { dump, maxCallDepth := 1024 }

/-- The errors that are noted when the tokens of a text are read; there are none without tokens. -/
def notedErrors (text : String) : List ParseError :=
  match tokenize text with
  | .ok tokens => (reading tokens).2.toList
  | .error _ => []

/-- The number of statements, if a program was read. -/
def countLine : Except ParseError (List Stmt) → String
  | .ok statements => "Statements: " ++ toString statements.length ++ "\n"
  | .error _ => ""

/-- The tokens of a text and the number of its statements, as far as it has any. -/
def listing (text : String) : String :=
  match tokenize text with
  | .ok tokens =>
    "Tokens:\n" ++ String.join (tokens.map fun token => token.text ++ "\n") ++
      countLine (reading tokens).1
  | .error _ => ""

/-- Messages as they are reported, each on a line of its own behind a mark. -/
def errorLines (mark : String) (messages : List String) : String :=
  String.join (messages.map fun message => mark ++ " " ++ message ++ "\n")

/-- The messages of a run: of the errors that reading went on after, and of the one it failed
with. -/
def messages (noted : List ParseError) (result : RunResult) : List String :=
  noted.map ParseError.message ++ (error? result).toList.map RunError.message

/-- What the command line makes of a run: the streams and the status that belong to it. -/
structure Agrees (request : Request) (outcome : Outcome) (listing : String)
    (noted : List ParseError) (result : RunResult) : Prop where
  /-- Status zero stands for success. -/
  success : outcome.status = 0 ↔ ∃ diagnostics after, result = .ok diagnostics after
  /-- There is only one other status. -/
  failure : outcome.status = 0 ∨ outcome.status = 1
  /-- All errors are reported, the one that ended the run behind the others. -/
  reports : outcome.reports = messages noted result
  /-- Nothing else is on the error stream, unless a log is kept there, and this is so whether the
  mark in front of the messages is coloured or not. -/
  stderr : request.verbose = false →
    ∀ mark, outcome.errorStream mark = errorLines mark (messages noted result)
  /-- The output of the script comes behind the listing. -/
  stdout : outcome.stdout = listing.toUTF8.data ++ (RunResult.after result).terminal.written

theorem errorStream_eq (outcome : Outcome) (mark : String) :
    outcome.errorStream mark = errorLines mark outcome.reports := by
  rfl

theorem tokenListing_eq (tokens : List Token) : tokenListing tokens =
    "Tokens:\n" ++ String.join (tokens.map fun token => token.text ++ "\n") := by
  rw [tokenListing, String.join_cons]
  rfl

/-! ## The ways to end -/

section Ends

variable (request : Request) (listed : String) (noted : List ParseError) (stop? : Option Stop)

theorem agrees_ok (diagnostics : List ParseError) (after : Session) :
    Agrees request ⟨0, listed.toUTF8.data ++ after.terminal.written,
      noted.map ParseError.message, stop?⟩ listed noted (.ok diagnostics after) := by
  have hmessages : noted.map ParseError.message = messages noted (.ok diagnostics after) :=
    (List.append_nil _).symm
  exact {
    success := iff_of_true rfl ⟨_, _, rfl⟩
    failure := .inl rfl
    reports := hmessages
    stderr _ mark := by rw [errorStream_eq, hmessages]
    stdout := rfl }

theorem agrees_error (error : RunError) (after : Session) :
    Agrees request ⟨1, listed.toUTF8.data ++ after.terminal.written,
      noted.map ParseError.message ++ [error.message], stop?⟩ listed noted
        (.error error after) where
  success := by
    refine iff_of_false (show ¬ (1 : UInt8) = 0 by decide) ?_
    rintro ⟨_, _, h⟩
    cases h
  failure := .inr rfl
  reports := rfl
  stderr _ mark := errorStream_eq _ mark
  stdout := rfl

/-- A script that was not run leaves nothing on the output but listings. -/
theorem agrees_failed (error : RunError) (dump : Bool) (input : LineSource) :
    Agrees request (failed listed (noted.map ParseError.message ++ [error.message])) listed noted
      (.error error (session dump input)) := by
  have hwritten : listed.toUTF8.data ++ (session dump input).terminal.written =
      listed.toUTF8.data := Array.append_empty
  have hagrees := agrees_error request listed noted none error (session dump input)
  rwa [hwritten] at hagrees

/-- Statements are run as a session runs them. -/
theorem agrees_runStatements (steps : Nat) (dump : Bool) (input : LineSource)
    {text : String} {parser stop : Parser} {statements : List Stmt}
    (hread : Parser.ofSource text = .ok parser)
    (hprogram : Parse.program parser = .ok statements stop) :
    Agrees request (runStatements steps dump input listed
        (stop.diagnostics.toList.map ParseError.message) statements)
      listed stop.diagnostics.toList (Session.run steps text (session dump input)) := by
  unfold runStatements
  rw [show Session.start (.streaming {} input) ⟨dump, maxCallDepth⟩ = session dump input from rfl]
  cases hinterpret : Action.interpret steps statements (session dump input) with
  | ok done after =>
    rw [Session.run_of_ok hread hprogram hinterpret]
    simp only [hinterpret]
    exact agrees_ok request listed _ none _ after
  | error reason after =>
    rw [Session.run_of_stop hread hprogram hinterpret]
    simp only [hinterpret]
    exact agrees_error request listed _ (some reason) (.stop reason) after

end Ends

/-- **The command line and a session agree.** Let a script be a text. The command line ends with
status zero if and only if a new session runs the script to its end. It reports each error that
reading went on after, in order, and then the error with which the session fails, if it does; if no
log is kept, these reports are all there is on the error stream, however they are marked there. Its
output is that of the session, behind the listing of tokens and the number of statements if listings
are wanted. -/
theorem run_agrees (steps : Nat) (request : Request) (input : LineSource) {script : Script}
    {text : String} (h : script.text = .ok text) :
    Agrees request (run steps request script input) (if request.dump then listing text else "")
      (notedErrors text) (Session.run steps text (session request.dump input)) := by
  rw [run, h]
  show Agrees request (runText steps request.dump input text) _ _ _
  generalize request.dump = dump
  cases htokens : tokenize text with
  | error error =>
    rw [Session.run_of_lex (Parser.ofSource_of_error htokens), listing, notedErrors, runText,
      htokens, ite_self]
    exact agrees_failed request "" [] (.lex error) dump input
  | ok tokens =>
    have hread := Parser.ofSource_of_ok htokens
    rw [listing, notedErrors, runText, htokens]
    simp only [tokenListing_eq, reading]
    cases hprogram : Parse.program (.ofTokens tokens) with
    | error fatal stop =>
      rw [Session.run_of_error hread hprogram, countLine, String.append_empty]
      exact agrees_failed request _ _ (.parse fatal stop.diagnostics.toList) dump input
    | ok statements stop =>
      cases dump with
      | true => exact agrees_runStatements request _ steps true input hread hprogram
      | false => exact agrees_runStatements request "" steps false input hread hprogram

end CommandLine

namespace Sample

/-- The bytes of `);` on a line and `1/0` on the next. -/
def spoiledScript : CommandLine.Script := .bytes [41, 59, 10, 49, 47, 48]

/-- An error that reading went on after is reported in front of the one that ends the run. -/
theorem spoiledScript_agrees :
    spoiledScript.text = .ok ");\n1/0" ∧
      (CommandLine.run 9 ⟨"s", false, false⟩ spoiledScript {}).status = 1 ∧
      (CommandLine.run 9 ⟨"s", false, false⟩ spoiledScript {}).stderr =
        "error: [Parse] line 1 at ')': Expected expression.\n" ++
          "error: [Runtime] line 2: Division by zero.\n" ∧
      CommandLine.Agrees ⟨"s", false, false⟩
        (CommandLine.run 9 ⟨"s", false, false⟩ spoiledScript {}) ""
        (CommandLine.notedErrors ");\n1/0")
        (Session.run 9 ");\n1/0" (CommandLine.session false {})) :=
  have htext : spoiledScript.text = .ok ");\n1/0" := by decide +kernel
  ⟨htext, by decide +kernel, by decide +kernel,
    CommandLine.run_agrees 9 ⟨"s", false, false⟩ {} htext⟩

end Sample

end Scriptlet
