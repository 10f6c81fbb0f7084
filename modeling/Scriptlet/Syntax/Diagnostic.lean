import Scriptlet.Token.Basic

/-!
# Errors in the form of a script

An error is a cause at a token. Most errors spoil only the statement they stand in, and reading
goes on behind it; the two limits on nesting are fatal.

## Main definitions

* `maxNesting`, `maxStatementNesting`, `maxEntries` — the limits of the language
* `ParseCause` — what can be wrong, with `ParseCause.message` and `ParseCause.isFatal`
* `ParseError`, `ParseError.message` — a cause at a token, and its report
-/

namespace Scriptlet

/-- How many expressions may be open inside each other. -/
def maxNesting : Nat := 100

/-- How many statements may be open inside each other. -/
def maxStatementNesting : Nat := 512

/-- How many arguments a call and how many parameters a function should have at most. -/
def maxEntries : Nat := 255

/-- What is wrong with the form of a script. -/
inductive ParseCause where
  | nestingTooDeep
  | statementNestingTooDeep
  | invalidTarget
  | tooManyArguments
  | tooManyParameters
  | integerOutOfRange (numeral : String)
  | noExpression
  | noParenAfterExpression
  | noParenAfterArguments
  | noThen
  | noDo
  | noBraceAfterBlock
  | noFunctionName
  | noParenAfterName
  | noParameterName
  | noParenAfterParameters
  | noBraceBeforeBody
deriving DecidableEq

namespace ParseCause

/-- Whether reading cannot go on behind an error. -/
def isFatal : ParseCause → Bool
  | nestingTooDeep | statementNestingTooDeep => true
  | _ => false

/-- What a cause tells the reader. -/
def message : ParseCause → String
  | nestingTooDeep => "Nesting exceeds the limit of " ++ toString maxNesting ++ " levels."
  | statementNestingTooDeep =>
    "Statement nesting exceeds the limit of " ++ toString maxStatementNesting ++ " levels."
  | invalidTarget => "Invalid assignment target."
  | tooManyArguments => "Can't have more than " ++ toString maxEntries ++ " arguments."
  | tooManyParameters => "Can't have more than " ++ toString maxEntries ++ " parameters."
  | integerOutOfRange numeral => "Integer literal '" ++ numeral ++ "' is out of range."
  | noExpression => "Expected expression."
  | noParenAfterExpression => "Expected ')' after expression."
  | noParenAfterArguments => "Expected ')' after arguments."
  | noThen => "Expected 'then' after if condition."
  | noDo => "Expected 'do' after while condition."
  | noBraceAfterBlock => "Expected '\x7d' after block."
  | noFunctionName => "Expected function name."
  | noParenAfterName => "Expected '(' after function name."
  | noParameterName => "Expected parameter name."
  | noParenAfterParameters => "Expected ')' after parameters."
  | noBraceBeforeBody => "Expected '\x7b' before function body."

end ParseCause

/-- An error in the form of a script. -/
structure ParseError where
  /-- What is wrong. -/
  cause : ParseCause
  /-- The token at which it was noticed. -/
  token : Token
deriving DecidableEq

namespace ParseError

/-- Where the error stands. -/
def location (error : ParseError) : Location := error.token.location

/-- Whether reading cannot go on behind the error. -/
def isFatal (error : ParseError) : Bool := error.cause.isFatal

/-- How a report points at the token. -/
def site (error : ParseError) : String :=
  if error.token.kind = .endOfInput then " at end" else " at '" ++ error.token.lexeme ++ "'"

/-- The report of an error. -/
def message (error : ParseError) : String :=
  "[Parse] line " ++ toString error.location.line ++ error.site ++ ": " ++ error.cause.message

end ParseError

end Scriptlet
