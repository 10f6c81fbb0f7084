import Scriptlet.Location
import Scriptlet.Terminal.Input

/-!
# Faults

A fault ends the run of a script. It is a cause at a place.

## Main definitions

* `FaultCause`, `FaultCause.message` — what can go wrong while a script runs
* `Fault`, `Fault.message` — a cause at a place, and its report
-/

namespace Scriptlet

/-- What can go wrong while a script runs. -/
inductive FaultCause where
  /-- No scope in sight binds the name. -/
  | undefinedVariable (name : String)
  /-- An operator on integers got something else. -/
  | typeMismatch (operator found : String)
  | divisionByZero
  /-- The exact result of an operation does not fit in an integer. -/
  | integerOverflow (operation : String)
  /-- A token stands in the place of an operator and is none. -/
  | unsupportedOperator (operator : String)
  /-- Something that is no function was called. -/
  | notCallable (found : String)
  | argumentCount (function : String) (expected found : Nat)
  /-- More calls were open than the limit allows. -/
  | stackOverflow (limit : Nat)
  | returnOutsideFunction
  | io (error : IoError)
deriving DecidableEq

/-- What a cause tells the reader. -/
def FaultCause.message : FaultCause → String
  | undefinedVariable name => "Undefined variable '" ++ name ++ "'."
  | typeMismatch operator found =>
    "'" ++ operator ++ "' expects integer operands, got " ++ found ++ "."
  | divisionByZero => "Division by zero."
  | integerOverflow operation => "Integer overflow in " ++ operation ++ "."
  | unsupportedOperator operator => "Unsupported operator '" ++ operator ++ "'."
  | notCallable found => "Can only call functions, got " ++ found ++ "."
  | argumentCount function expected found =>
    "Function '" ++ function ++ "' expects " ++ toString expected ++ " arguments but got " ++
      toString found ++ "."
  | stackOverflow limit => "Stack overflow: call depth exceeds " ++ toString limit ++ "."
  | returnOutsideFunction => "Can't return from top-level code."
  | io error => "I/O error: " ++ error.message

/-- What ended the run of a script. -/
structure Fault where
  /-- What went wrong. -/
  cause : FaultCause
  /-- Where in the script it went wrong. -/
  location : Location
deriving DecidableEq

/-- The report of a fault. -/
def Fault.message (fault : Fault) : String :=
  "[Runtime] line " ++ toString fault.location.line ++ ": " ++ fault.cause.message

end Scriptlet
