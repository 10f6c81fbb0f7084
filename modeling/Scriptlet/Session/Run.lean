import Scriptlet.Session.Eval
import Scriptlet.Syntax.Parser.Statement

/-!
# Running scripts

A script is read as a whole before any of it runs. Errors that reading went on after do not keep
the rest of the script from running; they are part of the answer.

## Main definitions

* `RunError`, `RunError.message` — why a script did not run to its end
* `Session.manySteps` — more steps than any run takes in practice
* `Session.run` — reads a script and runs it
-/

namespace Scriptlet

/-- Why a script did not run to its end. -/
inductive RunError where
  /-- The script is not a sequence of tokens. -/
  | lex (error : LexError)
  /-- Reading stopped at an error, after going on behind others. -/
  | parse (fatal : ParseError) (recovered : List ParseError)
  /-- The script ran and stopped. -/
  | stop (stop : Stop)
deriving DecidableEq

/-- The report of an error. -/
def RunError.message : RunError → String
  | lex error => error.message
  | parse fatal _ => fatal.message
  | stop (.fault fault) => fault.message
  | stop .exhausted => "The script was given too few steps to end."

namespace Session

/-- More steps than any run takes in practice. -/
def manySteps : Nat := 4611686018427387904

/-- Reads a script and runs it. The result is the errors that reading went on after. -/
def run (steps : Nat) (source : String) : EStateM RunError Session (List ParseError) :=
  fun session =>
    match Parser.ofSource source with
    | .error error => .error (.lex error) session
    | .ok parser =>
      match Parse.program parser with
      | .error fatal parser => .error (.parse fatal parser.diagnostics.toList) session
      | .ok statements parser =>
        match Action.interpret steps statements session with
        | .ok _ session => .ok parser.diagnostics.toList session
        | .error stop session => .error (.stop stop) session

end Session

end Scriptlet
