import Scriptlet.Syntax.Parser.Expression
import Scriptlet.Token.Lexer

/-!
# Reading statements and programs

A program is a sequence of declarations: functions and statements. A semicolon may follow a
statement that ends in an expression. An error in a declaration spoils that declaration only; a
placeholder stands for it, and reading goes on at the next statement.

## Main definitions

* `Parse.block`, `Parse.statementForm`, `Parse.functionForm` — the forms, given the reads one
  nesting level deeper
* `Parse.statement`, `Parse.declaration`, `Parse.program` — statements, declarations, programs
* `Parser.ofSource` — a parser over the tokens of a script

## Implementation notes

As with expressions, the forms are defined for one nesting level, and the recursion is on the
number of levels that may still be opened.
-/

namespace Scriptlet

namespace Parse

/-! ## Forms -/

/-- Consumes a semicolon if one is next. -/
def optionalSemicolon : Parse Unit := do
  let _ ← accept .semicolon

/-- Reads declarations up to a closing brace or an end mark, behind those already read. -/
def declarationsFrom (declaration : Parse Stmt) :
    List Token → Array Stmt → Parse (Array Stmt)
  | [], done => pure done
  | _ :: rounds, done => do
    let next ← current
    if next.kind = .rightBrace ∨ next.kind = .endOfInput then return done
    declarationsFrom declaration rounds (done.push (← declaration))

/-- Reads a block whose opening brace is consumed. -/
def block (declaration : Parse Stmt) : Parse (List Stmt) := do
  let body ← declarationsFrom declaration (← rounds) #[]
  let _ ← expect .rightBrace .noBraceAfterBlock
  return body.toList

/-- Reads what follows a `return`. There is no value before a semicolon, a closing brace or the
end. -/
def returnForm (keyword : Token) : Parse Stmt := do
  let next ← current
  if next.kind = .semicolon ∨ next.kind = .rightBrace ∨ next.kind = .endOfInput then
    optionalSemicolon
    return .ret keyword none
  let value ← expression
  optionalSemicolon
  return .ret keyword (some value)

/-- Reads what follows an `if`. An `else` belongs to the nearest branch that can have it. -/
def branchForm (statement : Parse Stmt) : Parse Stmt := do
  let condition ← expression
  let _ ← expect .kwThen .noThen
  let yes ← statement
  match ← accept .kwElse with
  | some _ => return .branch condition yes (some (← statement))
  | none => return .branch condition yes none

/-- Reads what follows a `while`. -/
def loopForm (statement : Parse Stmt) : Parse Stmt := do
  let condition ← expression
  let _ ← expect .kwDo .noDo
  return .loop condition (← statement)

/-- Reads a statement, given how the statements and declarations inside it are read. -/
def statementForm (statement declaration : Parse Stmt) : Parse Stmt := do
  match (← current).kind with
  | .kwReturn => returnForm (← advance)
  | .kwPrint =>
    let _ ← advance
    let value ← expression
    optionalSemicolon
    return .print value
  | .leftBrace =>
    let _ ← advance
    return .block (← block declaration)
  | .kwIf =>
    let _ ← advance
    branchForm statement
  | .kwWhile =>
    let _ ← advance
    loopForm statement
  | _ =>
    let value ← expression
    optionalSemicolon
    return .expression value

/-- Reads what follows a `function`, given how the declarations of its body are read. -/
def functionForm (declaration : Parse Stmt) : Parse Stmt := do
  let name ← expect .identifier .noFunctionName
  let _ ← expect .leftParen .noParenAfterName
  let params ← entries .tooManyParameters (expect .identifier .noParameterName)
  let _ ← expect .rightParen .noParenAfterParameters
  let _ ← expect .leftBrace .noBraceBeforeBody
  return .function name params (← block declaration)

/-- Reads a function or a statement, and goes on after an error. -/
def declarationForm (function statement : Parse Stmt) : Parse Stmt :=
  recovering .placeholder do
    match ← accept .kwFunction with
    | some _ => function
    | none => statement

/-! ## Nesting -/

mutual

/-- Reads a statement, with a number of nesting levels that may be opened. -/
def statementWithin : Nat → Parse Stmt
  | 0 => fail .statementNestingTooDeep
  | levels + 1 =>
    nestedStatement (statementForm (statementWithin levels)
      (declarationForm (functionWithin levels) (statementWithin levels)))

/-- Reads what follows a `function`, with a number of nesting levels that may be opened. -/
def functionWithin : Nat → Parse Stmt
  | 0 => fail .statementNestingTooDeep
  | levels + 1 =>
    nestedStatement (functionForm
      (declarationForm (functionWithin levels) (statementWithin levels)))

end

/-- Reads a statement. -/
def statement : Parse Stmt := fun parser =>
  statementWithin (maxStatementNesting - parser.statementDepth) parser

/-- Reads what follows a `function`. -/
def function : Parse Stmt := fun parser =>
  functionWithin (maxStatementNesting - parser.statementDepth) parser

/-- Reads a function or a statement, and goes on after an error. -/
def declaration : Parse Stmt := declarationForm function statement

/-! ## Programs -/

/-- Reads declarations up to an end mark, behind those already read. -/
def programFrom : List Token → Array Stmt → Parse (Array Stmt)
  | [], done => pure done
  | _ :: rounds, done => do
    if (← current).kind = .endOfInput then return done
    programFrom rounds (done.push (← declaration))

/-- Reads a program: all declarations up to the end. After a fatal error another call goes on at
the token where that error stands. -/
def program : Parse (List Stmt) := do
  return (← programFrom (← rounds) #[]).toList

end Parse

/-- A parser over the tokens of a script. -/
def Parser.ofSource (source : String) : Except LexError Parser :=
  (tokenize source).map Parser.ofTokens

end Scriptlet
